import DukaPay.Backend.AuditEpochs
import Mathlib.Data.Fintype.Basic

/-! After an hour was read to be sealed, an entry of that hour that becomes visible is in none of
its leaves, and never will be: there is one epoch for an hour. -/
namespace DukaPay.Backend.AuditEpochs
open Contractlib Discipline List
variable {κ Val : Type} (js : Platform Val) (sha : Bytes → Digest)

def Sealed (closed : Nat) (t : Tables Val) : Prop :=
  ∀ l ∈ t.logs, l.createdAt < closed → ∃ e ∈ t.epochs,
    (∃ leaf ∈ t.leaves, leaf.logId = l.id ∧ leaf.epochId = e.id) ∧
    (∀ leaf ∈ t.leaves, leaf.logId = l.id → leaf.epochId = e.id) ∧
    e.leafCount = (t.leavesOf e.id).length ∧
    e.merkleRoot = merkleRoot sha ((t.leavesOf e.id).map Leaf.leafHash)

def AllSealed (db : Db κ Val) : Prop :=
  ∀ r ∈ db.returned, r.1.hours ≤ 24 → Sealed sha r.1.closed r.2

def Timely (db : Db κ Val) : Outside Val → Prop
  | .commit log => hourOf log.createdAt ∉ db.read ∧ ∀ k, ∀ s ∈ db.searches k,
      log.createdAt < s.closed → hourOf log.createdAt ∈ s.found
  | .pass _ => True

structure Initial (db : Db κ Val) : Prop where
  ids : (db.tables.logs.map Log.id).Nodup
  epochs : db.tables.epochs = []
  leaves : db.tables.leaves = []
  read : db.read = []
  returned : db.returned = []

instance (db : Db κ Val) (e : Outside Val) : Decidable (Genuine db e) :=
  match e with
  | .commit _ => inferInstanceAs (Decidable (_ ∧ _))
  | .pass _ => .isTrue trivial

instance [Fintype κ] (db : Db κ Val) (e : Outside Val) : Decidable (Timely db e) :=
  match e with
  | .commit log => inferInstanceAs (Decidable (hourOf log.createdAt ∉ db.read ∧ ∀ k,
      ∀ s ∈ db.searches k, log.createdAt < s.closed → hourOf log.createdAt ∈ s.found))
  | .pass _ => .isTrue trivial

section
variable {start time : Nat} {t : Tables Val}

lemma dvd_hourOf (time) : hour ∣ hourOf time := ⟨time / hour,Nat.mul_comm _ _⟩

lemma hourOf_eq_iff (h : hour ∣ start) :
    hourOf time = start ↔ start ≤ time ∧ time < start + hour := by
  obtain ⟨n,rfl⟩ := h
  have hp : 0 < hour := by decide
  rw [hourOf,Nat.mul_comm,Nat.mul_right_inj hp.ne',Nat.div_eq_iff hp]
  rw [Nat.mul_comm hour n]
  omega

lemma mem_logsOf (h : hour ∣ start) {l} :
    l ∈ t.logsOf start ↔ l ∈ t.logs ∧ hourOf l.createdAt = start := by
  rw [Tables.logsOf,mem_insertionSort,mem_filter,Bool.and_eq_true,decide_eq_true_eq,
    decide_eq_true_eq,hourOf_eq_iff h]

lemma logsOf_append (h : hour ∣ start) {l : Log Val} (hn : hourOf l.createdAt ≠ start)
    {t' : Tables Val} (hl : t'.logs = t.logs ++ [l]) : t'.logsOf start = t.logsOf start := by
  have hr : ¬ (start ≤ l.createdAt ∧ l.createdAt < start + hour) :=
    fun hr => hn ((hourOf_eq_iff h).mpr hr)
  rw [Tables.logsOf,hl,filter_append]
  simp [hr,Tables.logsOf]

end

section
variable {rows : List (Log Val)} {id : Nat}

lemma map_leafRows_hash : (leafRows js sha id rows).map Leaf.leafHash = logHashes js sha rows := by
  refine ext_getElem (by simp [leafRows,logHashes]) fun i hi hi' => ?_
  simp [leafRows,logHashes]

lemma mem_leafRows {leaf} (h : leaf ∈ leafRows js sha id rows) :
    leaf.epochId = id ∧ ∃ l ∈ rows, leaf.logId = l.id := by
  obtain ⟨_,hi,rfl⟩ := mem_mapIdx.mp h
  exact ⟨rfl,_,getElem_mem hi,rfl⟩

lemma exists_leafRows {l} (h : l ∈ rows) :
    ∃ leaf ∈ leafRows js sha id rows, leaf.logId = l.id ∧ leaf.epochId = id := by
  obtain ⟨i,hi,rfl⟩ := getElem_of_mem h
  exact ⟨_,mem_mapIdx.mpr ⟨i,hi,rfl⟩,rfl,rfl⟩

lemma leafRows_sorted : (leafRows js sha id rows).insertionSort (·.leafIndex ≤ ·.leafIndex) =
    leafRows js sha id rows := by
  refine List.Pairwise.insertionSort_eq ?_
  rw [leafRows,pairwise_iff_getElem]
  intro i j hi hj hij
  rw [getElem_mapIdx,getElem_mapIdx]
  exact hij.le

end

section

structure Seals (e : Epoch) (db : Db κ Val) : Prop where
  read : e.epochStart ∈ db.read
  below : e.id < db.tables.nextEpochId
  leaves : db.tables.leaves.filter (·.epochId = e.id) =
    leafRows js sha e.id (db.tables.logsOf e.epochStart)
  count : e.leafCount = (db.tables.logsOf e.epochStart).length
  root : e.merkleRoot = merkleRoot sha (logHashes js sha (db.tables.logsOf e.epochStart))

structure Inv (db : Db κ Val) : Prop where
  ids : (db.tables.logs.map Log.id).Nodup
  hours : ∀ h ∈ db.read, hour ∣ h
  starts : (db.tables.epochs.map Epoch.epochStart).Nodup
  epochs : ∀ e ∈ db.tables.epochs, Seals js sha e db
  leaves : ∀ leaf ∈ db.tables.leaves, ∃ e ∈ db.tables.epochs, e.id = leaf.epochId
  returned : AllSealed sha db

structure Others (k : κ) (db db' : Db κ Val) : Prop where
  search : db'.searches k = db.searches k
  read : ∀ h ∈ db.read, h ∈ db'.read
  same : ∀ h ∈ db.read, db'.tables.logsOf h = db.tables.logsOf h
  added : ∀ l ∈ db'.tables.logs, l ∈ db.tables.logs ∨ hourOf l.createdAt ∉ db.read ∧
    ∀ s ∈ db.searches k, l.createdAt < s.closed → hourOf l.createdAt ∈ s.found
  epochs : ∀ h, db.tables.HasEpoch h → db'.tables.HasEpoch h

variable {js sha} {k : κ} {db db' db'' : Db κ Val}

lemma Others.of_logs (hs : db'.searches k = db.searches k)
    (hr : ∀ h ∈ db.read, h ∈ db'.read) (hg : db'.tables.logs = db.tables.logs)
    (he : ∀ h, db.tables.HasEpoch h → db'.tables.HasEpoch h) : Others k db db' where
  search := hs
  read := hr
  same h _ := by rw [Tables.logsOf,Tables.logsOf,hg]
  added l hl := .inl (hg ▸ hl)
  epochs := he

lemma Others.refl (k : κ) (db : Db κ Val) : Others k db db :=
  .of_logs rfl (fun _ => id) rfl fun _ => id

lemma Others.trans (h : Others k db db') (h' : Others k db' db'') : Others k db db'' where
  search := h'.search.trans h.search
  read x hx := h'.read x (h.read x hx)
  same x hx := (h'.same x (h.read x hx)).trans (h.same x hx)
  added l hl := by
    rcases h'.added l hl with hl | ⟨hd,hf⟩
    · exact h.added l hl
    · exact .inr ⟨fun hr => hd (h.read _ hr),h.search ▸ hf⟩
  epochs x hx := h'.epochs x (h.epochs x hx)

variable (js sha) in
def sealing : Discipline κ Statement Answer (Db κ Val) where
  inv := Inv js sha
  guar _ _ := True
  rely := Others
  permits _ _ _ _ := True
  guar_refl _ := trivial
  guar_trans _ _ := trivial
  rely_refl := Others.refl
  rely_trans := Others.trans

lemma Initial.inv (h : Initial db) : Inv js sha db where
  ids := h.ids
  hours x hx := by
    rw [h.read] at hx
    cases hx
  starts := by
    rw [h.epochs]
    exact nodup_nil
  epochs e he := by
    rw [h.epochs] at he
    cases he
  leaves leaf hlf := by
    rw [h.leaves] at hlf
    cases hlf
  returned r hr := by
    rw [h.returned] at hr
    cases hr

lemma Inv.hasEpoch_of_leaf (h : Inv js sha db) {l} (hl : l ∈ db.tables.logs)
    {leaf} (hf : leaf ∈ db.tables.leaves) (hd : leaf.logId = l.id) :
    ∃ e ∈ db.tables.epochs, e.id = leaf.epochId ∧ e.epochStart = hourOf l.createdAt := by
  obtain ⟨e,he,hp⟩ := h.leaves leaf hf
  have hsl := h.epochs e he
  have hr : leaf ∈ leafRows js sha e.id (db.tables.logsOf e.epochStart) := by
    rw [← hsl.leaves,mem_filter,decide_eq_true_eq]
    exact ⟨hf,hp.symm⟩
  obtain ⟨-,l',hl',hi'⟩ := mem_leafRows js sha hr
  have hg := (mem_logsOf (h.hours _ hsl.read)).mp hl'
  have hs : l' = l := inj_on_of_nodup_map h.ids hg.1 hl (hi'.symm.trans hd)
  exact ⟨e,he,hp,hs ▸ hg.2.symm⟩

lemma Inv.sealed (h : Inv js sha db) {cls} (hc : ∀ l ∈ db.tables.logs,
    l.createdAt < cls → db.tables.HasEpoch (hourOf l.createdAt)) : Sealed sha cls db.tables := by
  intro l hl ht
  obtain ⟨e,he,hst⟩ := hc l hl ht
  have hs := h.epochs e he
  have hg : l ∈ db.tables.logsOf e.epochStart := (mem_logsOf (h.hours _ hs.read)).mpr ⟨hl,hst.symm⟩
  have hv : db.tables.leavesOf e.id = leafRows js sha e.id (db.tables.logsOf e.epochStart) := by
    rw [Tables.leavesOf,hs.leaves,leafRows_sorted]
  refine ⟨e,he,?_,fun leaf hf hd => ?_,?_,?_⟩
  · obtain ⟨leaf,hf,hd,hp⟩ : ∃ leaf ∈ leafRows js sha e.id
        (db.tables.logsOf e.epochStart), leaf.logId = l.id ∧ leaf.epochId = e.id :=
      exists_leafRows js sha hg
    rw [← hs.leaves] at hf
    exact ⟨leaf,(mem_filter.mp hf).1,hd,hp⟩
  · obtain ⟨_,he',hp,hs'⟩ := h.hasEpoch_of_leaf hl hf hd
    rw [inj_on_of_nodup_map h.starts he' he (hs'.trans hst.symm)] at hp
    exact hp.symm
  · rw [hs.count,hv,leafRows,length_mapIdx]
  · rw [hs.root,hv,map_leafRows_hash]

end

section
variable {js sha} {k : κ} {db : Db κ Val}

lemma keeps_of_tables {db' : Db κ Val} (h : Inv js sha db) (htb : db'.tables = db.tables)
    (hd : db'.read = db.read) (ht : AllSealed sha db')
    (hs : ∀ j, j ≠ k → db'.searches j = db.searches j) : (sealing js sha).Keeps k db db' := by
  refine ⟨⟨htb ▸ h.ids,hd ▸ h.hours,htb ▸ h.starts,fun e he => ?_,
    htb ▸ h.leaves,ht⟩,trivial,fun j hj => ?_⟩
  · obtain ⟨hr,hb,hl,hc,hm⟩ := h.epochs e (htb ▸ he)
    exact ⟨hd ▸ hr,htb ▸ hb,htb ▸ hl,htb ▸ hc,htb ▸ hm⟩
  · exact .of_logs (hs j hj) (fun _ hh => hd ▸ hh) (by rw [htb]) fun _ hh => htb ▸ hh

lemma keeps_self (h : Inv js sha db) : (sealing js sha).Keeps k db db :=
  keeps_of_tables h rfl rfl h.returned fun _ _ => rfl

lemma keeps_read (h : Inv js sha db) {start} (hs : hour ∣ start) :
    (sealing js sha).Keeps k db { db with read := start :: db.read } := by
  refine ⟨⟨h.ids,?_,h.starts,fun e he => ?_,h.leaves,h.returned⟩,trivial,fun j _ => ?_⟩
  · exact forall_mem_cons.mpr ⟨hs,h.hours⟩
  · obtain ⟨hr,hb,hl,hc,hm⟩ := h.epochs e he
    exact ⟨mem_cons_of_mem _ hr,hb,hl,hc,hm⟩
  · exact .of_logs rfl (fun _ => mem_cons_of_mem _) rfl fun _ => id

def KeepsSeal (f : Epoch → Epoch) : Prop :=
  ∀ e, (f e).id = e.id ∧ (f e).epochStart = e.epochStart ∧ (f e).leafCount = e.leafCount ∧
    (f e).merkleRoot = e.merkleRoot

lemma keepsSeal_setStatus (st) : KeepsSeal (setStatus st) := fun _ => ⟨rfl,rfl,rfl,rfl⟩

lemma keepsSeal_setTxHash (hash : Option String) : KeepsSeal (setTxHash hash) :=
  fun _ => ⟨rfl,rfl,rfl,rfl⟩

lemma keepsSeal_anchored (hash : String) :
    KeepsSeal (setTxHash (some hash) ∘ setStatus .anchored) := fun _ => ⟨rfl,rfl,rfl,rfl⟩

lemma keeps_update (h : Inv js sha db) {id f} (hf : KeepsSeal f) :
    (sealing js sha).Keeps k db { db with
    tables := { db.tables with epochs := updateRow Epoch.id id f db.tables.epochs } } ∧
    ∀ x, db.tables.HasEpoch x → Tables.HasEpoch x
      { db.tables with epochs := updateRow Epoch.id id f db.tables.epochs } := by
  have hmm : ∀ e ∈ updateRow Epoch.id id f db.tables.epochs, ∃ e0 ∈ db.tables.epochs,
      e.id = e0.id ∧ e.epochStart = e0.epochStart ∧ e.leafCount = e0.leafCount ∧
        e.merkleRoot = e0.merkleRoot := by
    intro e he
    obtain ⟨e0,he0,rfl⟩ := mem_map.mp he
    refine ⟨e0,he0,?_⟩
    split
    · exact hf e0
    · exact ⟨rfl,rfl,rfl,rfl⟩
  have hep : ∀ e0 ∈ db.tables.epochs, ∃ e ∈ updateRow Epoch.id id f db.tables.epochs,
      e.id = e0.id ∧ e.epochStart = e0.epochStart := by
    intro e0 he0
    refine ⟨_,mem_map_of_mem he0,?_⟩
    split
    · exact ⟨(hf e0).1,(hf e0).2.1⟩
    · exact ⟨rfl,rfl⟩
  have hh : ∀ x, db.tables.HasEpoch x → Tables.HasEpoch x
      { db.tables with epochs := updateRow Epoch.id id f db.tables.epochs } := by
    rintro x ⟨e0,he0,rfl⟩
    obtain ⟨e,he,-,hs⟩ := hep e0 he0
    exact ⟨e,he,hs⟩
  refine ⟨⟨⟨h.ids,h.hours,?_,fun e he => ?_,fun leaf hlf => ?_,h.returned⟩,trivial,
    fun j _ => .of_logs rfl (fun _ hx => hx) rfl hh⟩,hh⟩
  · show ((updateRow _ _ _ _).map Epoch.epochStart).Nodup
    rw [map_updateRow fun e => (hf e).2.1]
    exact h.starts
  · obtain ⟨e0,he0,hd,hs,hn,ht⟩ := hmm e he
    obtain ⟨hr,hb,hl,hc,hm⟩ := h.epochs e0 he0
    refine ⟨hs ▸ hr,hd ▸ hb,?_,?_,?_⟩
    · rw [hd,hs]
      exact hl
    · rw [hs,hn]
      exact hc
    · rw [hs,ht]
      exact hm
  · obtain ⟨e0,he0,hp⟩ := h.leaves leaf hlf
    obtain ⟨e,he,hd,-⟩ := hep e0 he0
    exact ⟨e,he,hd.trans hp⟩

lemma keeps_insertEpoch (h : Inv js sha db) {start} (hd : start ∈ db.read)
    (hw : ¬ db.tables.HasEpoch start) : (sealing js sha).Keeps k db { db with
    tables := db.tables.insertEpoch js sha start (db.tables.logsOf start) } := by
  have hf : ∀ leaf ∈ db.tables.leaves, leaf.epochId ≠ db.tables.nextEpochId := by
    intro leaf hlf hq
    obtain ⟨e,he,hp⟩ := h.leaves leaf hlf
    exact absurd (h.epochs e he).below (by rw [hp,hq]; exact Nat.lt_irrefl _)
  have hh : ∀ x, db.tables.HasEpoch x →
      (db.tables.insertEpoch js sha start (db.tables.logsOf start)).HasEpoch x :=
    fun x ⟨e,he,hs⟩ => ⟨e,mem_append_left _ he,hs⟩
  refine ⟨⟨h.ids,h.hours,?_,fun e he => ?_,fun leaf hlf => ?_,h.returned⟩,trivial,
    fun j _ => .of_logs rfl (fun _ => id) rfl hh⟩
  · show ((_ ++ [_]).map Epoch.epochStart).Nodup
    rw [map_append,nodup_append]
    refine ⟨h.starts,nodup_singleton _,fun a ha b hb hab => ?_⟩
    obtain ⟨e,he,rfl⟩ := mem_map.mp ha
    rw [map_singleton,mem_singleton] at hb
    exact hw ⟨e,he,hab.trans hb⟩
  · rcases mem_append.mp he with he | he
    · obtain ⟨hr,hb,hl,hc,hm⟩ := h.epochs e he
      refine ⟨hr,Nat.lt_succ_of_lt hb,?_,hc,hm⟩
      have hn : (leafRows js sha db.tables.nextEpochId (db.tables.logsOf start)).filter
          (·.epochId = e.id) = [] := by
        refine filter_eq_nil_iff.mpr fun leaf hlf => ?_
        rw [(mem_leafRows js sha hlf).1,decide_eq_true_eq]
        exact hb.ne'
      show (_ ++ _ : List Leaf).filter _ = _
      rw [filter_append,hn,append_nil,hl]
      rfl
    · cases mem_singleton.mp he
      refine ⟨hd,Nat.lt_succ_self _,?_,rfl,rfl⟩
      have ho : db.tables.leaves.filter (·.epochId = db.tables.nextEpochId) = [] :=
        filter_eq_nil_iff.mpr fun leaf hlf => by
          rw [decide_eq_true_eq]
          exact hf leaf hlf
      have hal : (leafRows js sha db.tables.nextEpochId (db.tables.logsOf start)).filter
          (·.epochId = db.tables.nextEpochId) =
          leafRows js sha db.tables.nextEpochId (db.tables.logsOf start) :=
        filter_eq_self.mpr fun leaf hlf => by
          rw [decide_eq_true_eq]
          exact (mem_leafRows js sha hlf).1
      show (_ ++ _ : List Leaf).filter (·.epochId = db.tables.nextEpochId) = _
      rw [filter_append,ho,hal,nil_append]
      rfl
  · rcases mem_append.mp hlf with hlf | hlf
    · obtain ⟨e,he,hp⟩ := h.leaves leaf hlf
      exact ⟨e,mem_append_left _ he,hp⟩
    · exact ⟨_,mem_append_right _ (mem_singleton.mpr rfl),(mem_leafRows js sha hlf).1.symm⟩

lemma sealing_undisturbed : (sealing js sha).Undisturbed
    (interfere : Outside Val → Db κ Val → Db κ Val) fun db e => Genuine db e ∧ Timely db e := by
  intro db e h he
  cases e with
  | pass =>
    exact ⟨⟨h.ids,h.hours,h.starts,fun e he => let ⟨hr,hb,hl,hc,hm⟩ := h.epochs e he
      ⟨hr,hb,hl,hc,hm⟩,h.leaves,h.returned⟩,trivial,
      fun k => .of_logs rfl (fun _ => id) rfl fun _ => id⟩
  | commit l =>
    obtain ⟨⟨hd,-⟩,hrd,hf⟩ := he
    have hs : ∀ x ∈ db.read, (interfere (.commit l) db).tables.logsOf x = db.tables.logsOf x :=
      fun x hx => logsOf_append (h.hours x hx) (fun hq => hrd (hq ▸ hx)) rfl
    refine ⟨⟨?_,h.hours,h.starts,fun e he => ?_,h.leaves,h.returned⟩,trivial,fun k => ?_⟩
    · show ((_ ++ [_]).map Log.id).Nodup
      rw [map_append,nodup_append]
      refine ⟨h.ids,nodup_singleton _,fun a ha b hb hab => ?_⟩
      obtain ⟨l',hl',rfl⟩ := mem_map.mp ha
      rw [map_singleton,mem_singleton] at hb
      exact hd l' hl' (hab.trans hb)
    · obtain ⟨hr,hb,hl,hc,hm⟩ := h.epochs e he
      have hg := hs e.epochStart hr
      exact ⟨hr,hb,hg ▸ hl,hg ▸ hc,hg ▸ hm⟩
    · refine ⟨rfl,fun _ => id,hs,fun l' hl' => ?_,fun _ => id⟩
      rcases mem_append.mp hl' with hl' | hl'
      · exact .inl hl'
      · cases mem_singleton.mp hl'
        exact .inr ⟨hrd,hf k⟩

end

section
variable {js sha} {k : κ} {db : Db κ Val} {start : Nat} {rest : List Nat}

structure Working (k : κ) (rest : List Nat) (db : Db κ Val) : Prop where
  hours : ∀ h ∈ rest, hour ∣ h
  search : ∀ s ∈ db.searches k, s.hours ≤ 24 → (∀ h ∈ s.found, h ∈ rest ∨ h ∈ db.read) ∧
    ∀ l ∈ db.tables.logs, l.createdAt < s.closed →
      hourOf l.createdAt ∈ rest ∨ db.tables.HasEpoch (hourOf l.createdAt)

lemma working_stable (rest) : (sealing js sha).Stable k (Working k rest) := by
  intro db db' hre h
  refine ⟨h.hours,fun s hs he => ?_⟩
  rw [hre.search] at hs
  obtain ⟨hf,hg⟩ := h.search s hs he
  refine ⟨fun x hx => (hf x hx).imp id (hre.read x),fun l hl hc => ?_⟩
  rcases hre.added l hl with hl | ⟨hr,ha⟩
  · exact (hg l hl hc).imp id (hre.epochs _)
  · exact .inl ((hf _ (ha s hs hc)).resolve_right hr)

lemma Working.next (h : Working k (start :: rest) db) (hr : start ∈ db.read)
    (hd : ∀ l ∈ db.tables.logs, hourOf l.createdAt = start → db.tables.HasEpoch start) :
    Working k rest db := by
  refine ⟨fun x hx => h.hours x (mem_cons_of_mem _ hx),fun s hs hle => ?_⟩
  obtain ⟨hf,hg⟩ := h.search s hs hle
  refine ⟨fun x hx => ?_,fun l hl hc => ?_⟩
  · rcases hf x hx with hx | hx
    · rcases mem_cons.mp hx with rfl | hx
      · exact .inr hr
      · exact .inl hx
    · exact .inr hx
  · rcases hg l hl hc with ht | he
    · rcases mem_cons.mp ht with ht | hre
      · exact .inr (ht ▸ hd l hl ht)
      · exact .inl hre
    · exact .inr he

lemma ensures_sql_stable {α : Type} {st} {f : Db κ Val → Except Failure α × Db κ Val}
    {P : Db κ Val → Prop} (hP : (sealing js sha).Stable k P)
    (h : ∀ db, Inv js sha db → P db → (sealing js sha).Keeps k db (f db).2 ∧ P (f db).2)
    (hd : P db) : (sealing js sha).Leaves k P P (sql st f) db := by
  refine ensures_statement_stable hP hP (fun db i hi hd _ => ?_) hd
  cases i.fault with
  | none => exact h db hi hd
  | lost => exact ⟨keeps_self hi,hd⟩
  | late => exact h db hi hd

section

structure Reading (k : κ) (start : Nat) (rest : List Nat) (rows : List (Log Val)) (db : Db κ Val) :
    Prop where
  working : Working k (start :: rest) db
  read : start ∈ db.read
  rows : db.tables.logsOf start = rows

lemma reading_stable (start rest rows) : (sealing js sha).Stable k (Reading k start rest rows) :=
  fun db db' hr h => ⟨working_stable _ db db' hr h.working,hr.read start h.read,
    (hr.same start h.read).trans h.rows⟩

lemma ensures_selectLogs (h : Working k (start :: rest) db) :
    (sealing js sha).Ensures k (fun rows => Reading k start rest rows)
    (fun _ => Working k (start :: rest)) (selectLogs start) db := by
  refine ensures_statement fun db1 hre hi i _ => ?_
  have hw := working_stable _ _ _ hre h
  have hk : (sealing js sha).Keeps k db1 { db1 with read := start :: db1.read } :=
    keeps_read hi (h.hours start mem_cons_self)
  have hr : Working k (start :: rest) { db1 with read := start :: db1.read } :=
    ⟨hw.hours,fun s hs hl => (hw.search s hs hl).imp
      (fun hf x hx => (hf x hx).imp id (mem_cons_of_mem _)) id⟩
  cases i.fault with
  | none =>
    refine ⟨hk,fun db2 hr2 _ => ⟨fun rows hrs => ?_,fun e he => (by cases he)⟩⟩
    cases hrs
    exact reading_stable _ _ _ _ _ hr2 ⟨hr,mem_cons_self,rfl⟩
  | lost =>
    exact ⟨keeps_self hi,fun db2 hr2 _ =>
      ⟨fun _ hrs => (by cases hrs),fun _ _ => working_stable _ _ _ hr2 hw⟩⟩
  | late =>
    exact ⟨hk,fun db2 hr2 _ =>
      ⟨fun _ hrs => (by cases hrs),fun _ _ => working_stable _ _ _ hr2 hr⟩⟩

lemma keeps_seal (hi : Inv js sha db) {rows} (h : Reading k start rest rows db) :
    (∀ e, (db.tables.seal js sha start rows).1 ≠ .error e) ∧
    (sealing js sha).Keeps k db { db with tables := (db.tables.seal js sha start rows).2 } ∧
    Working k rest { db with tables := (db.tables.seal js sha start rows).2 } := by
  have ha := h.working.hours start mem_cons_self
  rw [Tables.seal]
  split
  · next hp =>
    exact ⟨fun e he => (by cases he),keeps_self hi,h.working.next h.read fun _ _ _ => hp⟩
  · next hw =>
    have hn : ¬ ∃ l ∈ rows, ∃ leaf ∈ db.tables.leaves, leaf.logId = l.id := by
      rintro ⟨l,hl,leaf,hf,hd⟩
      obtain ⟨ho,ht⟩ := (mem_logsOf ha).mp (h.rows ▸ hl)
      obtain ⟨e,he,-,hp⟩ := hi.hasEpoch_of_leaf ho hf hd
      exact hw ⟨e,he,hp.trans ht⟩
    rw [if_neg hn,← h.rows]
    have hp : (db.tables.insertEpoch js sha start (db.tables.logsOf start)).HasEpoch start :=
      ⟨_,mem_append_right _ (mem_singleton.mpr rfl),rfl⟩
    have hr : Working k (start :: rest) { db with
        tables := db.tables.insertEpoch js sha start (db.tables.logsOf start) } := by
      refine ⟨h.working.hours,fun s hs hle => ?_⟩
      refine (h.working.search s hs hle).imp id fun hg l hl hc => ?_
      exact (hg l hl hc).imp id fun ⟨e,he,ht⟩ => ⟨e,mem_append_left _ he,ht⟩
    exact ⟨fun e he => (by cases he),keeps_insertEpoch hi h.read hw,hr.next h.read fun _ _ _ => hp⟩

lemma Working.cons (h : Working k rest db) (ht : hour ∣ start) : Working k (start :: rest) db :=
  ⟨forall_mem_cons.mpr ⟨ht,h.hours⟩,fun s hs he => (h.search s hs he).imp
    (fun hf x hx => (hf x hx).imp (mem_cons_of_mem _) id)
    fun hg l hl hc => (hg l hl hc).imp (mem_cons_of_mem _) id⟩

lemma ensures_createEpoch (h : Working k (start :: rest) db) :
    (sealing js sha).Leaves k (Working k rest) (Working k (start :: rest))
    (createEpoch js sha start) db := by
  have hal := h.hours start mem_cons_self
  refine ensures_bind ((ensures_selectLogs h).mono (fun rows db _ hd => ?_) fun _ _ _ hd => hd)
  split
  · -- there are no entries, and there will be none
    have hn : ∀ db : Db κ Val, Reading k start rest [] db → Working k rest db := by
      intro db hd
      refine hd.working.next hd.read fun l hl hs => ?_
      have hm : l ∈ db.tables.logsOf start := (mem_logsOf hal).mpr ⟨hl,hs⟩
      rw [hd.rows] at hm
      cases hm
    exact (ensures_sql_stable (reading_stable _ _ _) (fun _ hi hd => ⟨keeps_self hi,hd⟩)
      hd).mono (fun _ db _ hd => hn db hd) fun _ _ _ hd => hd.working
  · next rows _ =>
    refine ensures_statement fun db1 hre hi i _ => ?_
    have hr := reading_stable _ _ _ _ _ hre hd
    obtain ⟨ho,hk,hw⟩ := keeps_seal hi hr
    cases i.fault with
    | none =>
      exact ⟨hk,fun db2 hr2 _ => ⟨fun _ _ => working_stable _ _ _ hr2 hw,
        fun e he => absurd he (ho e)⟩⟩
    | lost =>
      exact ⟨keeps_self hi,fun db2 hr2 _ => ⟨fun _ ha => (by cases ha),
        fun _ _ => working_stable _ _ _ hr2 hr.working⟩⟩
    | late =>
      exact ⟨hk,fun db2 hr2 _ => ⟨fun _ ha => (by cases ha),
        fun _ _ => working_stable _ _ _ hr2 (hw.cons hal)⟩⟩

lemma ensures_withTransaction {α : Type} {fn : Program κ Val α} {P Q : Db κ Val → Prop}
    (hQ : (sealing js sha).Stable k Q) (hf : ∀ db, Q db → (sealing js sha).Leaves k P Q fn db)
    (retries) {db : Db κ Val} (h : Q db) : (sealing js sha).Leaves k P Q
    (withTransaction fn retries) db := by
  induction retries generalizing db with
  | zero => exact hf db h
  | succ retries ih =>
    refine ensures_tryCatch ((hf db h).mono (fun _ _ _ hd => hd) fun e db _ hd => ?_)
    split
    · exact ih hd
    · exact ensures_throw fun _ hr _ => hQ _ _ hr hd

end

section
variable {env : Env}

/-- Under `p`, process `k` comes and goes without an hour to seal. -/
abbrev Idles (js : Platform Val) (sha : Bytes → Digest) (k : κ) {α : Type} (p : Program κ Val α)
    (db : Db κ Val) : Prop :=
  (sealing js sha).Leaves k (Working k []) (Working k []) p db

lemma ensures_updateEpoch {id} {f : Epoch → Epoch} (hf : KeepsSeal f) {db}
    (h : Working k [] db) : Idles js sha k (updateEpoch id f) db := by
  refine ensures_sql_stable (working_stable []) (fun db hi hd => ?_) h
  obtain ⟨hk,hh⟩ := keeps_update hi hf
  refine ⟨hk,hd.hours,fun s hs he => ?_⟩
  obtain ⟨hfd,hg⟩ := hd.search s hs he
  exact ⟨hfd,fun l hl hc => (hg l hl hc).imp (fun hx => hx) (hh _)⟩

lemma ensures_call {α : Type} {st} {a : Answer → Except String α}
    {db} (h : Working k [] db) : Idles js sha k (call st a) db :=
  Discipline.ensures_statement_stable (working_stable []) (working_stable [])
    (fun _ _ hi hd _ => ⟨keeps_self hi,hd⟩) h

lemma ensures_done {α : Type} {a db} (h : Working k [] db) :
    Idles js sha k (pure a : Program κ Val α) db :=
  Discipline.ensures_pure fun _ hr _ => working_stable [] _ _ hr h

lemma ensures_failed {α : Type} {e db} (h : Working k [] db) :
    Idles js sha k (throw e : Program κ Val α) db :=
  Discipline.ensures_throw fun _ hr _ => working_stable [] _ _ hr h

lemma ensures_seq {α β : Type} {p} {f : α → Program κ Val β} {db} (hp : Idles js sha k p db)
    (hf : ∀ a db, Working k [] db → Idles js sha k (f a) db) : Idles js sha k (p >>= f) db :=
  Discipline.ensures_bind (hp.mono (fun a db _ hd => hf a db hd) fun _ _ _ hd => hd)

lemma ensures_resolveExisting (epoch) (h : Working k [] db) :
    Idles js sha k (resolveExisting epoch) db := by
  rw [resolveExisting]
  split
  · exact ensures_done h
  · refine ensures_seq (ensures_call h) fun st db hd => ?_
    split
    · exact ensures_seq (ensures_updateEpoch (keepsSeal_setStatus _) hd)
        fun _ _ hd => ensures_done hd
    split
    · exact ensures_seq (ensures_updateEpoch (keepsSeal_setTxHash _) hd)
        fun _ _ hd => ensures_done hd
    · exact ensures_failed hd

lemma ensures_submitAnchor (epoch) (h : Working k [] db) :
    Idles js sha k (submitAnchor epoch) db := by
  refine ensures_seq (ensures_call h) fun sent db hd => ?_
  split
  · exact ensures_failed hd
  · refine ensures_seq (ensures_updateEpoch (keepsSeal_setTxHash _) hd) fun _ _ hd => ?_
    refine ensures_seq (ensures_call hd) fun st db hd => ?_
    split
    · exact ensures_updateEpoch (keepsSeal_anchored _) hd
    · exact ensures_failed hd

lemma ensures_anchorEpoch (epoch) (h : Working k [] db) :
    Idles js sha k (anchorEpoch env epoch) db := by
  rw [anchorEpoch]
  split
  · refine ensures_seq (ensures_call h) fun _ _ hd => ?_
    refine ensures_seq (ensures_resolveExisting epoch hd) fun anchored _ hd => ?_
    split
    · exact ensures_done hd
    · exact ensures_submitAnchor epoch hd
  · exact ensures_failed h

lemma ensures_anchorPending (h : Working k [] db) : Idles js sha k (anchorPending env) db := by
  rw [anchorPending]
  split
  · refine ensures_seq (ensures_sql_stable (working_stable [])
      (fun _ hi hd => ⟨keeps_self hi,hd⟩) h) fun pend _ hd => ?_
    refine ensures_forEach (fun _ => Working k []) (fun _ => working_stable [])
      (fun epoch _ db hd => ?_) hd
    refine ensures_tryCatch ((ensures_anchorEpoch epoch hd).mono (fun _ _ _ hd => hd)
      fun _ db _ hd => ?_)
    exact ensures_updateEpoch (keepsSeal_setStatus _) hd
  · exact ensures_done h

end

variable [DecidableEq κ] {env : Env}

lemma keeps_search (hi : Inv js sha db) (search) :
    (sealing js sha).Keeps k db (db.search k search) :=
  keeps_of_tables hi rfl rfl hi.returned fun _ hj => if_neg hj

lemma working_search (hi : Inv js sha db) (closed) :
    Working k ((db.tables.unsealedHours closed).take 24)
    (db.search k (some (db.tables.search closed))) := by
  have hm : ∀ x, x ∈ db.tables.unsealedHours closed ↔
      ∃ l ∈ db.tables.unsealed closed, hourOf l.createdAt = x := by
    intro x
    rw [Tables.unsealedHours,mem_insertionSort,mem_dedup,mem_map]
  refine ⟨fun x hx => ?_,fun s hs hle => ?_⟩
  · obtain ⟨l,-,rfl⟩ := (hm x).mp (mem_of_mem_take hx)
    exact dvd_hourOf _
  · have hs : db.tables.search closed = s := by simpa [Db.search] using hs
    subst hs
    refine ⟨fun x hx => .inl hx,fun l hl hc => ?_⟩
    by_cases hf : ∃ leaf ∈ db.tables.leaves, leaf.logId = l.id
    · obtain ⟨leaf,hf,hd⟩ := hf
      obtain ⟨e,he,-,ht⟩ := hi.hasEpoch_of_leaf hl hf hd
      exact .inr ⟨e,he,ht⟩
    have hu : l ∈ db.tables.unsealed closed := by
      rw [Tables.unsealed,mem_filter,Bool.and_eq_true,decide_eq_true_eq,all_eq_true]
      refine ⟨hl,hc,fun leaf hm => ?_⟩
      rw [decide_eq_true_eq]
      exact fun hd => hf ⟨leaf,hm,hd⟩
    rw [take_of_length_le hle]
    exact .inl ((hm _).mpr ⟨l,hu,rfl⟩)

lemma ensures_selectHours (cls db) :
    (sealing js sha).Ensures k (fun hours => Working k hours) (fun _ _ => True)
    (selectHours k cls) db := by
  refine ensures_statement fun db1 _ hi i _ => ?_
  have hk : (sealing js sha).Keeps k db1 (db1.search k (some (db1.tables.search cls))) :=
    keeps_search hi _
  cases i.fault with
  | none =>
    refine ⟨hk,fun db2 hr _ => ⟨fun hours hh => ?_,fun _ _ => trivial⟩⟩
    cases hh
    exact working_stable _ _ _ hr (working_search hi cls)
  | lost =>
    exact ⟨keeps_self hi,fun _ _ _ => ⟨fun _ hh => (by cases hh),fun _ _ => trivial⟩⟩
  | late => exact ⟨hk,fun _ _ _ => ⟨fun _ hh => (by cases hh),fun _ _ => trivial⟩⟩

lemma ensures_sealAndAnchor (db) :
    (sealing js sha).Ensures k (fun _ => Working k []) (fun _ _ => True)
    (sealAndAnchor js sha env k) db := by
  refine ensures_bind (ensures_statement fun db1 _ hi i _ =>
    ⟨keeps_self hi,fun db2 _ _ => ⟨fun cls _ => ?_,fun _ _ => trivial⟩⟩)
  refine ensures_bind ((ensures_selectHours cls db2).mono (fun hours db _ hd => ?_)
    fun _ _ _ _ => trivial)
  refine ensures_bind ((ensures_forEach (Working k) working_stable
    (fun start rest db hd => ?_) hd).mono (fun _ db _ hd => ?_) fun _ _ _ h => h)
  · refine ensures_bind ((ensures_withTransaction (working_stable _)
      (fun db hd => ensures_createEpoch hd) 3 hd).mono (fun _ db _ hd => ?_)
      fun _ _ _ _ => trivial)
    exact ensures_pure fun _ hr _ => working_stable _ _ _ hr hd
  · exact (ensures_anchorPending hd).mono (fun _ _ _ hd => hd) fun _ _ _ _ => trivial

lemma keeps_settle (hi : Inv js sha db) (h : Working k [] db) :
    (sealing js sha).Keeps k db (db.settle k) := by
  refine keeps_of_tables hi rfl rfl ?_ fun _ hj => if_neg hj
  intro r hr he
  rcases mem_append.mp hr with hr | hr
  · obtain ⟨s,hs,rfl⟩ := mem_map.mp hr
    obtain ⟨-,hg⟩ := h.search s (Option.mem_toList.mp hs) he
    exact hi.sealed fun l hl hc => (hg l hl hc).resolve_left (not_mem_nil)
  · exact hi.returned r hr he

lemma ensures_auditAnchorJob (db) : (sealing js sha).Safe k (auditAnchorJob js sha env k) db := by
  have ha : ∀ db, (sealing js sha).Safe k
      (.statement .settle fun _ db => (.ok (),db.search k none) : Program κ Val Unit) db :=
    fun db => ensures_statement fun _ _ hi _ _ =>
      ⟨keeps_search hi none,fun _ _ _ => ⟨fun _ _ => trivial,fun _ _ => trivial⟩⟩
  refine ensures_tryCatch (ensures_bind
    ((ensures_sealAndAnchor db).mono (fun _ db _ hd => ?_) fun _ db _ _ => ha db))
  refine ensures_statement fun db1 hr hi i _ => ?_
  exact ⟨keeps_settle hi (working_stable [] _ _ hr hd),fun db2 _ _ =>
    ⟨fun _ _ => trivial,fun _ he => (by cases he)⟩⟩

/-- **Every closed entry gets sealed.** If entries become visible before their hour is read, and
during a run in hours that the run seals, then whenever a run returns that has found at most 24
hours, every closed entry is a leaf of exactly one epoch, whose root and count match its leaves. -/
theorem sealed_run (js : Platform Val) (sha : Bytes → Digest) (env : Env) (db : Db κ Val)
    (hstart : Initial db) (turns : List (Turn κ Answer (Outside Val)))
    (hlegal : Pool.Legal interfere (fun _ _ _ _ => True) (fun db e => Genuine db e ∧ Timely db e)
      turns (sealPool js sha env db)) :
    AllSealed sha ((sealPool js sha env db).run interfere turns).state := by
  have ho : (sealing js sha).Obeyed (fun _ _ _ => True) (fun _ _ _ => True)
      (sealPool js sha env db) := ⟨hstart.inv,fun k => ensures_auditAnchorJob db⟩
  exact (ho.run sealing_undisturbed hlegal).2.1.returned

end

private def noEntries : Db (Fin 2) PlainColumn := ⟨⟨[],[],[],1⟩,0,[],fun _ => none,[]⟩

private def unanchored : Env := ⟨none,none,none⟩

private def early : Log PlainColumn := ⟨1,5000000,firstApproval⟩

private def belated : Log PlainColumn := ⟨2,hour - 1000,secondApproval⟩

private def wholeRun (k : Fin 2) : List (Turn (Fin 2) Answer (Outside PlainColumn)) :=
  List.replicate 5 (.step k ⟨.none,false,.ok (),.ok "SUCCESS",.ok none⟩)

private def inTime : List (Turn (Fin 2) Answer (Outside PlainColumn)) :=
  [.outside (.pass hour),.outside (.commit early),.outside (.commit belated)] ++ wholeRun 0

private def tooLate : List (Turn (Fin 2) Answer (Outside PlainColumn)) :=
  [.outside (.pass hour),.outside (.commit early)] ++ wholeRun 0 ++ [.outside (.commit belated)] ++
    wholeRun 1

theorem sealed_run_in_time :
    let db := ((sealPool plainPlatform plainSha unanchored noEntries).run interfere inTime).state
    (db.returned.map fun r => (r.1.hours, r.2.leaves.map Leaf.logId)) = [(1, [1,2])] ∧
      AllSealed plainSha db :=
  ⟨by decide +kernel,sealed_run plainPlatform plainSha unanchored noEntries
    ⟨nodup_nil,rfl,rfl,rfl,rfl⟩ inTime (by decide +kernel)⟩

/-- **A late entry** is found by every run from then on, and never sealed. -/
theorem late_entry : ¬ ∀ turns : List (Turn (Fin 2) Answer (Outside PlainColumn)),
    Pool.Legal interfere (fun _ _ _ _ => True) Genuine turns
    (sealPool plainPlatform plainSha unanchored noEntries) → AllSealed plainSha
    ((sealPool plainPlatform plainSha unanchored noEntries).run interfere turns).state := by
  intro h
  have ha : ∃ r ∈ ((sealPool plainPlatform plainSha unanchored noEntries).run interfere
      tooLate).state.returned, r.1.hours ≤ 24 ∧ ∃ l ∈ r.2.logs, l.createdAt < r.1.closed ∧
        ∀ leaf ∈ r.2.leaves, leaf.logId ≠ l.id := by
    decide +kernel
  obtain ⟨r,hr,hle,l,hl,hc,hn⟩ := ha
  obtain ⟨_,-,⟨leaf,he,hid,-⟩,-⟩ := h tooLate (by decide +kernel) r hr hle l hl hc
  exact hn leaf he hid

end DukaPay.Backend.AuditEpochs
