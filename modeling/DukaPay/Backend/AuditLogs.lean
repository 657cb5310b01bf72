import Mathlib.Data.List.Basic

/-! Pages of the audit log: the rows are ordered by the time they were created, and the cursor is an
id. -/
namespace DukaPay.Backend.AuditLogs
open List

structure AuditLog where
  id : Nat
  actor : String
  action : String
  createdAt : Int
  deriving DecidableEq

/-- The rows of the table in the order of the query; it says nothing about equal times. -/
structure Table where
  rows : List AuditLog
  ordered : rows.Pairwise fun a b => b.createdAt ≤ a.createdAt
  unique : (rows.map AuditLog.id).Nodup

structure Filters where
  actor : Option String := none
  action : Option String := none
  «from» : Option Int := none
  «to» : Option Int := none

def Filters.Matches (f : Filters) (log : AuditLog) : Bool :=
  -- an empty text is no filter
  (f.actor.filter (· ≠ "")).all (log.actor = ·) &&
    (f.action.filter (· ≠ "")).all (log.action = ·) && f.from.all (· ≤ log.createdAt) &&
    f.to.all (log.createdAt ≤ ·)

variable (t : Table) (f : Filters) (limit : Nat)

/-- The rows of the `WHERE` clause. -/
def left (cursor : Option Nat) : List AuditLog :=
  t.rows.filter fun log => f.Matches log && cursor.all (log.id < ·)

/-- The page, the next cursor and the number of all rows. -/
def getAuditLogs (cursor : Option Nat) (offset : Nat := 0) (withTotal : Bool := false) :
    List AuditLog × Option Nat × Option Nat :=
  let rows := ((left t f cursor).drop offset).take (limit + 1)
  let data := rows.take limit
  (data,if limit < rows.length then data.getLast?.map AuditLog.id else none,
    if withTotal then some t.rows.length else none)

/-- All pages from a cursor on, as long as there is a next one. -/
def follow : Nat → Option Nat → List AuditLog
  | 0,_ => []
  | fuel + 1,cursor =>
    match getAuditLogs t f limit cursor with
    | (data,none,_) => data
    | (data,some next,_) => data ++ follow fuel (some next)

/-- Every page but the last ends with an id below those before it and above those after it. -/
inductive Cuts : List AuditLog → Prop
  | last {logs} (h : logs.length ≤ limit) : Cuts logs
  | page {before last after} (length : before.length + 1 = limit) (next : after ≠ [])
      (above : ∀ log ∈ before, last.id < log.id) (below : ∀ log ∈ after, log.id < last.id)
      (h : Cuts after) : Cuts (before ++ last :: after)

section
variable {t f limit} {c : Option Nat} {logs p d : List AuditLog} {last r : AuditLog} {n}

lemma follow_last (h : (left t f c).length ≤ limit) : follow t f limit (n + 1) c = left t f c := by
  have hr : (left t f c).take (limit + 1) = left t f c := take_of_length_le (by omega)
  simp [follow,getAuditLogs,hr,Nat.not_lt.mpr h,take_of_length_le h]

lemma follow_next (h : left t f c = p ++ last :: d) (hp : p.length + 1 = limit) (hd : d ≠ []) :
    follow t f limit (n + 1) c = p ++ last :: follow t f limit n (some last.id) := by
  obtain ⟨first,rest,rfl⟩ := exists_cons_of_ne_nil hd
  have hl : (p ++ last :: first :: rest).take (limit + 1) = p ++ [last,first] := by
    subst hp
    rw [take_append]
    simp [take_of_length_le,Nat.add_assoc]
  have ht : (p ++ [last,first]).take limit = p ++ [last] := by
    subst hp
    simp [take_append,take_of_length_le]
  have hg : limit < (p ++ [last,first]).length := by simp [← hp]
  simp only [follow,getAuditLogs,h,drop_zero,hl,ht,if_pos hg]
  simp

lemma left_next (h : left t f c = p ++ last :: d) :
    left t f (some last.id) = (left t f c).filter (·.id < last.id) := by
  have hc := (mem_filter.mp (show last ∈ left t f c by simp [h])).2
  rw [left,left,filter_filter]
  refine filter_congr fun log _ => ?_
  cases c with
  | none => simp [Bool.and_comm]
  | some c =>
    have hl : last.id < c := by simp_all
    by_cases hi : log.id < last.id <;> simp [hi]
    intro
    omega

lemma exists_cut (hl : 0 < limit) (h : limit < logs.length) :
    ∃ p last d, logs = p ++ last :: d ∧ p.length + 1 = limit ∧ d ≠ [] := by
  refine ⟨logs.take (limit - 1),logs[limit - 1],logs.drop limit,?_,?_,?_⟩
  · have hd := drop_eq_getElem_cons (show limit - 1 < logs.length by omega)
    rw [Nat.sub_add_cancel hl] at hd
    rw [← hd,take_append_drop]
  · rw [length_take]
    omega
  · rw [Ne,drop_eq_nil_iff]
    omega

lemma follow_subset (hl : 0 < limit) : r ∈ follow t f limit n c → r ∈ left t f c := by
  induction n generalizing c with
  | zero => simp [follow]
  | succ n ih =>
    by_cases hn : limit < (left t f c).length
    · obtain ⟨p,last,d,h,hp,hd⟩ := exists_cut hl hn
      rw [follow_next h hp hd,mem_append,mem_cons]
      rintro (hr | rfl | hr)
      · simp [h,hr]
      · simp [h]
      · have hr := ih hr
        rw [left_next h] at hr
        exact (mem_filter.mp hr).1
    · rw [follow_last (by omega)]
      exact id

lemma head_mem_follow (hl : 0 < limit) (h : r ∈ (left t f c).head?) :
    r ∈ follow t f limit (n + 1) c := by
  by_cases hn : limit < (left t f c).length
  · obtain ⟨p,last,d,hc,hp,hd⟩ := exists_cut hl hn
    rw [follow_next hc hp hd]
    cases p <;> simp_all
  · rw [follow_last (by omega)]
    exact mem_of_mem_head? h

lemma cuts_iff (hp : p.length + 1 = limit) (hd : d ≠ []) : Cuts limit (p ++ last :: d) ↔
    ((∀ log ∈ p, last.id < log.id) ∧ ∀ log ∈ d, log.id < last.id) ∧ Cuts limit d := by
  refine ⟨fun h => ?_,fun h => .page hp hd h.1.1 h.1.2 h.2⟩
  generalize hs : p ++ last :: d = logs at h
  cases h with
  | last h =>
    have := length_pos_iff.mpr hd
    simp only [← hs,length_append,length_cons] at h
    omega
  | page hp' _ hb ha h =>
    obtain ⟨rfl,ht⟩ := append_inj hs (by omega)
    cases ht
    exact ⟨⟨hb,ha⟩,h⟩

lemma follow_perm_iff (hl : 0 < limit) (hf : (left t f c).length < n) :
    (follow t f limit n c).Perm (left t f c) ↔ Cuts limit (left t f c) := by
  induction n generalizing c with
  | zero => omega
  | succ n ih =>
    by_cases hn : limit < (left t f c).length
    · obtain ⟨p,last,d,h,hp,hd⟩ := exists_cut hl hn
      have hi : ((left t f c).map AuditLog.id).Nodup := t.unique.sublist (filter_sublist.map _)
      have hm := left_next h
      rw [follow_next h hp hd]
      rw [h] at hi hm hf ⊢
      have hne := (pairwise_append.mp (pairwise_map.mp hi)).2.2
      have hle : d.length < n := by
        simp only [length_append,length_cons] at hf
        omega
      rw [cuts_iff hp hd,perm_append_left_iff,perm_cons]
      -- where the page ends with a cut, the next request finds exactly what is left
      have hs : (∀ log ∈ p, last.id < log.id) ∧ (∀ log ∈ d, log.id < last.id) →
          left t f (some last.id) = d := by
        rintro ⟨hb,ha⟩
        have hni : p.filter (·.id < last.id) = [] :=
          filter_eq_nil_iff.mpr (by simpa using fun log hg => Nat.le_of_lt (hb log hg))
        have hal : d.filter (·.id < last.id) = d := filter_eq_self.mpr (by simpa using ha)
        rw [hm,filter_append,hni,filter_cons_of_neg (by simp),hal]
        rfl
      constructor
      · intro hpm
        have ha : ∀ log ∈ d, log.id < last.id := by
          intro log hg
          have hr := follow_subset hl (hpm.mem_iff.mpr hg)
          rw [hm] at hr
          simpa using (mem_filter.mp hr).2
        have hb : ∀ log ∈ p, last.id < log.id := by
          intro log hg
          by_contra hlt
          -- the first row of the next request would be one of this page again
          have hin : log ∈ p.filter (·.id < last.id) := by
            have := hne log hg last mem_cons_self
            simp [hg]
            omega
          obtain ⟨r,rest,hr⟩ := exists_cons_of_ne_nil (ne_nil_of_mem hin)
          have hrp : r ∈ p := mem_of_mem_filter (hr ▸ mem_cons_self)
          obtain ⟨k,rfl⟩ := Nat.exists_eq_add_one.mpr (Nat.zero_lt_of_lt hle)
          have hrd : r ∈ d := hpm.mem_iff.mp (head_mem_follow hl (by simp [hm,hr]))
          exact hne r hrp r (mem_cons_of_mem _ hrd) rfl
        have he := hs ⟨hb,ha⟩
        rw [← he] at hle hpm ⊢
        exact ⟨he ▸ ⟨hb,ha⟩,(ih hle).mp hpm⟩
      · rintro ⟨hb,hc⟩
        have he := hs hb
        rw [← he] at hc hle ⊢
        exact (ih hle).mpr hc
    · rw [follow_last (by omega)]
      exact iff_of_true (.refl _) (.last (by omega))

end

theorem paging_lossless_iff (hl : 0 < limit) :
    (∃ k, ∀ fuel ≥ k, (follow t f limit fuel none).Perm (t.rows.filter f.Matches)) ↔
      Cuts limit (t.rows.filter f.Matches) := by
  have hall : left t f none = t.rows.filter f.Matches := by simp [left]
  rw [← hall]
  refine ⟨fun ⟨k,hk⟩ => ?_,fun h => ⟨(left t f none).length + 1,fun fuel hf => ?_⟩⟩
  · exact (follow_perm_iff hl (by omega)).mp (hk (k + (left t f none).length + 1) (by omega))
  · exact (follow_perm_iff hl hf).mpr h

/-- Two transactions, of which the one that started first inserted its row last. -/
def crossed : Table where
  rows := [⟨1,"a","lock",2⟩,⟨2,"b","lock",1⟩]
  ordered := by decide
  unique := by decide

/-- Locks and an unlock; the last two locks were inserted in the other order. -/
def locks : Table where
  rows := [⟨7,"a","lock",7⟩,⟨6,"b","unlock",6⟩,⟨5,"a","lock",5⟩,⟨4,"b","lock",4⟩,⟨3,"a","lock",3⟩,
    ⟨1,"a","lock",2⟩,⟨2,"b","lock",1⟩]
  ordered := by decide
  unique := by decide

/-- Three pages of two locks each. -/
theorem paging_lossless_locks : ∃ k, ∀ fuel ≥ k,
    (follow locks { action := some "lock" } 2 fuel none).Perm
    (locks.rows.filter ({ action := some "lock" } : Filters).Matches) := by
  refine (paging_lossless_iff locks { action := some "lock" } 2 (by decide)).mpr ?_
  have hf : locks.rows.filter ({ action := some "lock" } : Filters).Matches =
      [⟨7,"a","lock",7⟩] ++ ⟨5,"a","lock",5⟩ :: ([⟨4,"b","lock",4⟩] ++ ⟨3,"a","lock",3⟩ ::
      [⟨1,"a","lock",2⟩,⟨2,"b","lock",1⟩]) := by
    decide
  rw [hf]
  exact .page rfl (by decide) (by decide) (by decide)
    (.page rfl (by decide) (by decide) (by decide) (.last (by decide)))

theorem crossed_row_lost : (⟨2,"b","lock",1⟩ : AuditLog) ∈ crossed.rows ∧
    ∀ fuel, ⟨2,"b","lock",1⟩ ∉ follow crossed {} 1 fuel none := by
  refine ⟨by decide,?_⟩
  rintro (_ | _ | fuel)
  · decide
  · decide
  · simp [follow,getAuditLogs,left,crossed,Filters.Matches]

end DukaPay.Backend.AuditLogs
