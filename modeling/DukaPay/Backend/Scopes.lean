import DukaPay.Backend.Idempotency
import DukaPay.Contractlib.Separators

/-! Responses and locks live in one flat space of keys, made up of the principal, the method, the
route and the header with colons in between. -/
namespace DukaPay.Backend.Idempotency
open Contractlib List World
variable {κ Body : Type}

structure Incoming extends Request where
  publicKey_slash : ∀ text ∈ publicKey, '/' ∉ text.toList
  ip_slash : ∀ text ∈ ip, '/' ∉ text.toList
  method_slash : '/' ∉ method.toList
  method_colon : ':' ∉ method.toList
  baseUrl_rooted : baseUrl = "" ∨ baseUrl.toList.head? = some '/'
  path_rooted : path.toList.head? = some '/'

def Request.Uses (req : Request) (name : String) : Prop :=
  ∃ key ∈ truthy req.header, name = req.cacheKey key ∨ name = req.lockKey key

def Request.tail (req : Request) (key : String) : String := req.route ++ ":" ++ key

def Meet (r r' : Request) : Prop :=
  ∃ key ∈ truthy r.header, ∃ key' ∈ truthy r'.header, r.principal = r'.principal ∧
    r.method = r'.method ∧ (r.tail key = r'.tail key' ∨ r.tail key = r'.tail key' ++ ":inflight" ∨
      r'.tail key' = r.tail key ++ ":inflight")

def Differ (r r' : Request) : Prop :=
  r.principal ≠ r'.principal ∨ r.method ≠ r'.method ∨ r.route ≠ r'.route ∨ r.header ≠ r'.header

def Isolated (j k : κ) (w : World κ Body) : Prop :=
  ∀ e ∈ w.trace, e ≠ .hit j k ∧ e ≠ .hit k j ∧ e ≠ .blocked j k ∧ e ≠ .blocked k j

lemma Isolated.symm {j k : κ} {w : World κ Body} (h : Isolated j k w) : Isolated k j w := by
  intro e he
  obtain ⟨hh,hh',hb,hb'⟩ := h e he
  exact ⟨hh',hh,hb',hb⟩

section
variable (requests : κ → Request)

def Accounted : Event κ Body → Prop
  | .hit k owner | .blocked k owner => ∃ name, (requests k).Uses name ∧ (requests owner).Uses name
  | _ => True

structure Owned (w : World κ Body) : Prop where
  redis : ∀ name e, w.redis name = some e → (requests e.owner).Uses name
  trace : ∀ e ∈ w.trace, Accounted requests e

def ownership : Discipline κ Command (Answer Body) (World κ Body) where
  inv := Owned requests
  guar _ _ := True
  rely _ _ _ := True
  permits _ _ _ _ := True
  guar_refl _ := trivial
  guar_trans _ _ := trivial
  rely_refl _ _ := trivial
  rely_trans _ _ := trivial

variable {requests} {w w' : World κ Body} {k : κ}

lemma owned_keeps (h : Owned requests w') : (ownership requests).Keeps k w w' :=
  ⟨h,trivial,fun _ _ => trivial⟩

lemma Owned.note {e} (h : Owned requests w) (he : Accounted requests e) :
    Owned requests (w.note e) := by
  refine ⟨h.redis,fun e' he' => ?_⟩
  rcases mem_append.mp he' with he' | he'
  · exact h.trace e' he'
  · rw [mem_singleton.mp he']
    exact he

lemma Owned.set {name v} (h : Owned requests w)
    (hv : ∀ e, v = some e → (requests e.owner).Uses name) : Owned requests (w.set name v) := by
  refine ⟨fun name' e he => ?_,h.trace⟩
  obtain rfl | hnm := eq_or_ne name' name
  · rw [redis_set_self] at he
    exact hv e he
  · rw [redis_set_ne hnm] at he
    exact h.redis name' e he

lemma Owned.entry {name e} (h : Owned requests w)
    (hn : (requests k).Uses name) (he : w.redis name = some e) :
    ∃ name, (requests k).Uses name ∧ (requests e.owner).Uses name :=
  ⟨name,hn,h.redis name e he⟩

abbrev Ensured (requests : κ → Request) (k : κ) {α : Type} (p : Program κ Body α) : Prop :=
  ∀ w, (ownership requests).Ensures k (fun _ _ => True) (fun _ _ => True) p w

variable {α : Type}

lemma ensured_statement {c} {f : Answer Body → World κ Body → Except Unit α × World κ Body}
    (h : ∀ i w, Owned requests w → Owned requests (f i w).2) :
    Ensured requests k (.statement c f) :=
  fun _ => Discipline.ensures_statement fun w _ hw i _ =>
    ⟨owned_keeps (h i w hw),fun _ _ _ => ⟨fun _ _ => trivial,fun _ _ => trivial⟩⟩

lemma ensured_bind {β : Type} {p} {q : α → Program κ Body β}
    (hp : Ensured requests k p) (hq : ∀ a, Ensured requests k (q a)) :
    Ensured requests k (p >>= q) :=
  fun w => Discipline.ensures_andThen (hp w) hq

lemma ensured_tryCatch {p} {ha : Unit → Program κ Body α}
    (hp : Ensured requests k p) (hh : ∀ e, Ensured requests k (ha e)) :
    Ensured requests k (tryCatch p ha) :=
  fun w => Discipline.ensures_tryCatch ((hp w).mono (fun _ _ _ h => h) fun e w _ _ => hh e w)

lemma ensured_pure (a : α) : Ensured requests k (pure a : Program κ Body α) :=
  fun _ => Discipline.ensures_pure fun _ _ _ => trivial

lemma ensured_throw : Ensured requests k (throw () : Program κ Body α) :=
  fun _ => Discipline.ensures_throw fun _ _ _ => trivial

lemma ensured_isOpen (req) : Ensured requests k (isOpen req : Program κ Body Bool) :=
  ensured_statement fun _ _ hw => hw

lemma ensured_recordSuccess (req) : Ensured requests k (recordSuccess req : Program κ Body Unit) :=
  ensured_statement fun _ _ hw => ⟨hw.redis,hw.trace⟩

lemma ensured_recordFailure (req) : Ensured requests k (recordFailure req : Program κ Body Unit) :=
  ensured_statement fun _ _ hw => ⟨hw.redis,hw.trace⟩

lemma ensured_answer (rp : Reply Body) : Ensured requests k (answer k rp) :=
  ensured_statement fun _ _ hw => hw.note trivial

lemma ensured_replay (e : Entry κ Body) : Ensured requests k (replay k e) := by
  obtain ⟨_,val⟩ := e
  cases val with
  | response => exact ensured_answer _
  | lockToken => exact ensured_throw

lemma ensured_handler : Ensured requests k (handler k : Program κ Body (Nat × Sent Body)) :=
  ensured_statement fun i _ hw =>
    (hw.note (e := .finished k i.status i.sent) trivial).note trivial

variable {name : String}

lemma ensured_get (read) (hn : (requests k).Uses name) :
    Ensured requests k (get k read name : Program κ Body _) := by
  refine ensured_statement fun i w hw => ?_
  cases i.fault with
  | lost => exact hw
  | late => exact hw
  | none =>
    cases he : w.redis name with
    | none => exact hw
    | some => exact hw.note (hw.entry hn he)

lemma Owned.setNx (hw : Owned requests w) (hn : (requests k).Uses name) :
    Owned requests (setNx k name w).2 := by
  rw [Idempotency.setNx]
  cases he : w.redis name with
  | none =>
    refine hw.set fun e hv => ?_
    cases hv
    exact hn
  | some => exact hw.note (hw.entry hn he)

lemma ensured_reserve (hn : (requests k).Uses name) :
    Ensured requests k (reserve k name : Program κ Body Bool) := by
  refine ensured_statement fun i w hw => ?_
  cases i.fault with
  | none => exact hw.setNx hn
  | lost => exact hw
  | late => exact hw.setNx hn

lemma ensured_setRequired (hn : (requests k).Uses name) (st : Nat) (sent : Sent Body)
    (body : Body) : Ensured requests k (setRequired k name st sent body) := by
  refine ensured_statement fun i w hw => ?_
  have hs : Owned requests ((w.set name (some ⟨k,.response st body⟩)).note (.stored st sent)) := by
    refine (hw.set fun e hv => ?_).note trivial
    cases hv
    exact hn
  cases i.fault with
  | none => exact hs
  | lost => exact hw
  | late => exact hs

variable {req : Request} {key : String}

lemma ensured_whenOccupied (hc : (requests k).Uses (req.cacheKey key)) :
    Ensured requests k (whenOccupied k req key : Program κ Body Bool) := by
  refine ensured_bind (ensured_get _ hc) fun cmp => ?_
  cases cmp with
  | some e => exact ensured_bind (ensured_replay e) fun _ => ensured_pure _
  | none => exact ensured_bind (ensured_answer _) fun _ => ensured_pure _

lemma ensured_store (hc : (requests k).Uses (req.cacheKey key)) (st : Nat)
    (sent : Sent Body) (body : Body) : Ensured requests k (store k req key st sent body) :=
  ensured_tryCatch (ensured_bind (ensured_setRequired hc st sent body) fun _ =>
      ensured_bind (ensured_recordSuccess req) fun _ => ensured_pure _)
    fun _ => ensured_bind (ensured_recordFailure req) fun _ => ensured_pure _

variable [DecidableEq κ] [DecidableEq Body]

lemma Owned.compareAndDelete (hw : Owned requests w) :
    Owned requests (compareAndDelete k name w).2 := by
  rw [Idempotency.compareAndDelete]
  split
  · exact hw.set fun e hv => by cases hv
  · exact hw

lemma ensured_deleteIfMatch : Ensured requests k (deleteIfMatch k name : Program κ Body Bool) := by
  refine ensured_statement fun i w hw => ?_
  cases i.fault with
  | none => exact hw.compareAndDelete
  | lost => exact hw
  | late => exact hw.compareAndDelete

lemma ensured_whenReserved (hc : (requests k).Uses (req.cacheKey key)) :
    Ensured requests k (whenReserved k req key : Program κ Body Bool) := by
  refine ensured_bind (ensured_get _ hc) fun cmp => ?_
  cases cmp with
  | some e =>
    exact ensured_bind ensured_deleteIfMatch fun _ =>
      ensured_bind (ensured_replay e) fun _ => ensured_pure _
  | none => exact ensured_pure _

lemma ensured_lookup (hc : (requests k).Uses (req.cacheKey key))
    (hl : (requests k).Uses (req.lockKey key)) :
    Ensured requests k (lookup k req key : Program κ Body Bool) := by
  refine ensured_bind (ensured_get _ hc) fun cv => ?_
  refine ensured_bind (ensured_recordSuccess req) fun _ => ?_
  cases cv with
  | some e => exact ensured_bind (ensured_replay e) fun _ => ensured_pure _
  | none =>
    refine ensured_bind (ensured_reserve hl) fun acq => ?_
    cases acq with
    | true => exact ensured_whenReserved hc
    | false => exact ensured_whenOccupied hc

variable (parse : String → Body)

lemma ensured_finish (hc : (requests k).Uses (req.cacheKey key))
    (st : Nat) (sent : Sent Body) : Ensured requests k (finish parse k req key st sent) := by
  have hd : Ensured requests k
      (deleteIfMatch k (req.lockKey key) >>= fun _ => pure () : Program κ Body Unit) :=
    ensured_bind ensured_deleteIfMatch fun _ => ensured_pure _
  rw [finish]
  split
  · refine ensured_bind (ensured_store hc st sent _) fun sto => ?_
    cases sto with
    | true => exact hd
    | false => exact ensured_pure _
  · exact hd

lemma ensured_idempotencyMiddleware (k : κ) :
    Ensured requests k (idempotencyMiddleware parse k (requests k)) := by
  rw [idempotencyMiddleware]
  cases hk : truthy (requests k).header with
  | none => exact ensured_bind ensured_handler fun _ => ensured_pure _
  | some key =>
    have hc : (requests k).Uses ((requests k).cacheKey key) := ⟨key,hk,.inl rfl⟩
    have hl : (requests k).Uses ((requests k).lockKey key) := ⟨key,hk,.inr rfl⟩
    refine ensured_bind (ensured_isOpen _) fun unavailable => ?_
    cases unavailable with
    | true => exact ensured_answer _
    | false =>
      refine ensured_bind (ensured_tryCatch (ensured_lookup hc hl) fun _ => ?_) fun proceed => ?_
      · exact ensured_bind (ensured_recordFailure _) fun _ =>
          ensured_bind (ensured_answer _) fun _ => ensured_pure _
      · cases proceed with
        | true => exact ensured_bind ensured_handler fun _ => ensured_finish parse hc _ _
        | false => exact ensured_pure _

/-- **Whose value is read.** In every run, a value that a request reads or is blocked by belongs to
a request that uses the same key. -/
lemma owned_run (tns) :
    Owned requests ((requestPool parse requests empty).run noInterference tns).state := by
  have hs : (ownership requests).Obeyed (fun _ _ _ => True) (fun _ _ _ => True)
      (requestPool parse requests empty) := by
    refine ⟨⟨fun _ _ he => ?_,fun _ he => ?_⟩,fun k => ensured_idempotencyMiddleware parse k _⟩
    · cases he
    · cases he
  have hu : (ownership requests : Discipline κ _ _ (World κ Body)).Undisturbed
      noInterference (fun _ _ => True) := fun _ e => e.elim
  exact (hs.run hu (Pool.legal_of_forall (fun _ _ _ _ => trivial) (fun _ _ => trivial) tns _)).2.1

end

section

def Request.head (req : Request) : String := "idemp:" ++ req.principal ++ ":" ++ req.method ++ ":"

lemma Request.cacheKey_eq (req : Request) (key) : req.cacheKey key = req.head ++ req.tail key := by
  simp only [Request.cacheKey,Request.scope,Request.head,Request.tail,String.append_assoc]

lemma Request.lockKey_eq (req : Request) (key) :
    req.lockKey key = req.head ++ (req.tail key ++ ":inflight") := by
  rw [Request.lockKey,Request.cacheKey_eq,String.append_assoc]

namespace Incoming
variable (r : Incoming)

lemma principal_slash : '/' ∉ r.principal.toList := by
  rw [Request.principal]
  cases hpu : truthy r.publicKey with
  | some publicKey =>
    have hm : r.publicKey = some publicKey := (Option.filter_eq_some_iff.mp hpu).1
    simp [r.publicKey_slash publicKey hm]
  | none =>
    cases hp : truthy r.ip with
    | some ip => simp [r.ip_slash ip (Option.filter_eq_some_iff.mp hp).1]
    | none => simp

lemma route_rooted : ∃ rest, r.route.toList = '/' :: rest := by
  have hp := r.path_rooted
  have hp' : r.path ≠ "" := by
    intro he
    rw [he] at hp
    cases hp
  rw [Request.route,if_neg hp',String.toList_append]
  rcases r.baseUrl_rooted with hb | hb
  · obtain ⟨rest,hr⟩ := head?_eq_some_iff.mp hp
    exact ⟨rest,by rw [hb,hr]; rfl⟩
  · obtain ⟨rest,hr⟩ := head?_eq_some_iff.mp hb
    exact ⟨rest ++ r.path.toList,by rw [hr]; rfl⟩

lemma tail_rooted (key) : ∃ rest, (r.tail key).toList = '/' :: rest := by
  obtain ⟨rest,hr⟩ := r.route_rooted
  exact ⟨rest ++ ":".toList ++ key.toList,by simp [Request.tail,hr]⟩

lemma head_append_inj (r r' : Incoming) {t text' : String} (h : ∃ rest, t.toList = '/' :: rest)
    (h' : ∃ rest, text'.toList = '/' :: rest) : r.head ++ t = r'.head ++ text' ↔ r.principal =
    r'.principal ∧ r.method = r'.method ∧ t = text' := by
  have hs : ∀ r : Incoming, '/' ∉ (r.principal.toList ++ ':' :: r.method.toList) ++ [':'] := by
    intro r
    simp [r.principal_slash,r.method_slash]
  have ha : ∀ (r : Incoming) (t : String), (r.head ++ t).toList = "idemp:".toList ++
      ((r.principal.toList ++ ':' :: r.method.toList ++ [':']) ++ t.toList) := by
    intro r t
    simp [Request.head]
  obtain ⟨rest,hr⟩ := h
  obtain ⟨rest',hr'⟩ := h'
  have ht : t = text' ↔ rest = rest' := by rw [← String.toList_inj,hr,hr',cons_inj_right]
  rw [← String.toList_inj,ha,ha,append_cancel_left_eq,hr,hr',
    append_cons_inj_first (hs r) (hs r'),append_cancel_right_eq,
    append_cons_inj_last r.method_colon r'.method_colon,String.toList_inj,String.toList_inj,
    ht,and_assoc]

end Incoming

lemma meet_iff_uses (r r' : Incoming) :
    Meet r.toRequest r'.toRequest ↔ ∃ name, r.Uses name ∧ r'.Uses name := by
  have hl : ∀ (r : Incoming) key, ∃ rest, (r.tail key ++ ":inflight").toList = '/' :: rest := by
    intro r key
    obtain ⟨rest,hr⟩ := r.tail_rooted key
    exact ⟨rest ++ ":inflight".toList,by simp [hr]⟩
  constructor
  · rintro ⟨key,hk,key',hk',hp,hm,he | he | he⟩
    · refine ⟨r.cacheKey key,⟨key,hk,.inl rfl⟩,key',hk',.inl ?_⟩
      rw [Request.cacheKey_eq,Request.cacheKey_eq]
      exact (Incoming.head_append_inj r r' (r.tail_rooted _) (r'.tail_rooted _)).mpr ⟨hp,hm,he⟩
    · refine ⟨r.cacheKey key,⟨key,hk,.inl rfl⟩,key',hk',.inr ?_⟩
      rw [Request.cacheKey_eq,Request.lockKey_eq]
      exact (Incoming.head_append_inj r r' (r.tail_rooted _) (hl r' _)).mpr ⟨hp,hm,he⟩
    · refine ⟨r.lockKey key,⟨key,hk,.inr rfl⟩,key',hk',.inl ?_⟩
      rw [Request.cacheKey_eq,Request.lockKey_eq]
      exact (Incoming.head_append_inj r r' (hl r _) (r'.tail_rooted _)).mpr ⟨hp,hm,he.symm⟩
  · rintro ⟨name,⟨key,hk,rfl | rfl⟩,key',hk',he | he⟩
    · rw [Request.cacheKey_eq,Request.cacheKey_eq] at he
      obtain ⟨hp,hm,he⟩ :=
        (Incoming.head_append_inj r r' (r.tail_rooted _) (r'.tail_rooted _)).mp he
      exact ⟨key,hk,key',hk',hp,hm,.inl he⟩
    · rw [Request.cacheKey_eq,Request.lockKey_eq] at he
      obtain ⟨hp,hm,he⟩ := (Incoming.head_append_inj r r' (r.tail_rooted _) (hl r' _)).mp he
      exact ⟨key,hk,key',hk',hp,hm,.inr (.inl he)⟩
    · rw [Request.cacheKey_eq,Request.lockKey_eq] at he
      obtain ⟨hp,hm,he⟩ := (Incoming.head_append_inj r r' (hl r _) (r'.tail_rooted _)).mp he
      exact ⟨key,hk,key',hk',hp,hm,.inr (.inr he.symm)⟩
    · rw [Request.lockKey_eq,Request.lockKey_eq] at he
      obtain ⟨hp,hm,he⟩ := (Incoming.head_append_inj r r' (hl r _) (hl r' _)).mp he
      rw [← String.toList_inj,String.toList_append,String.toList_append,
        append_cancel_right_eq,String.toList_inj] at he
      exact ⟨key,hk,key',hk',hp,hm,.inl he⟩

end

section

def Answer.fine : Answer Body := ⟨.none,0,200,.nothing⟩

lemma updateBreaker_empty (server) :
    (empty : World κ Body).updateBreaker server CircuitBreaker.recordSuccess = empty := by
  have hb : (fun sv' => if sv' = server then CircuitBreaker.recordSuccess ⟨0,0⟩
      else ⟨0,0⟩) = fun _ => (⟨0,0⟩ : CircuitBreaker) := by
    funext sv'
    split <;> rfl
  exact congrArg (mk _ · _) hb

variable {k : κ} {key : String} {req : Request}

lemma advance_get_none {name} {w : World κ Body} (hn : w.redis name = none)
    (p : Option (Entry κ Body) → Program κ Body Bool) (ha : Unit → Program κ Body Bool)
    (q : Bool → Program κ Body Unit) :
    (tryCatch (get k .before name >>= p) ha >>= q).advance Answer.fine w =
    (tryCatch (p none) ha >>= q,w) := by
  have hr {run : Answer Body → World κ Body → Except Unit (Option (Entry κ Body)) × World κ Body}
      (h : run Answer.fine w = (.ok none,w)) :
      (tryCatch (Thread.statement (.get .before name) run >>= p) ha >>= q).advance Answer.fine w =
        (tryCatch (p none) ha >>= q,w) :=
    congrArg (fun r => (Thread.resume ha (fun b => tryCatch (p b) ha) r.1 >>= q,r.2)) h
  exact hr (by simp only [Answer.fine,hn])

variable [DecidableEq κ] [DecidableEq Body] {requests : κ → Request} (parse : String → Body)

lemma advances_reserve {j : κ} (hk : truthy req.header = some key) :
    ((idempotencyMiddleware parse j req).advances (List.replicate 4 (Answer.fine : Answer Body))
    empty).2 = empty.set (req.lockKey key) (some ⟨j,.lockToken⟩) := by
  have hb : ((idempotencyMiddleware parse j req).advances
        (List.replicate 4 (Answer.fine : Answer Body)) empty).2 =
      (empty.updateBreaker req.server CircuitBreaker.recordSuccess).set (req.lockKey key)
        (some ⟨j,.lockToken⟩) := by
    rw [idempotencyMiddleware,hk]
    rfl
  rw [hb,updateBreaker_empty]

lemma run_second {j : κ} (hn : k ≠ j) (hk : truthy (requests j).header = some key) (n) :
    ((requestPool parse requests empty).run noInterference
    ((List.replicate 4 (Answer.fine : Answer Body)).map (.step j) ++
    (List.replicate n Answer.fine).map (.step k))).state =
    ((idempotencyMiddleware parse k (requests k)).advances (List.replicate n Answer.fine)
    (empty.set ((requests j).lockKey key) (some ⟨j,.lockToken⟩))).2 := by
  rw [Pool.run_append,Pool.run_steps,Pool.run_steps]
  simp only [requestPool,if_neg hn,advances_reserve parse hk]

lemma advances_hit (e : Entry κ Body) (hk : truthy req.header = some key) :
    .hit k e.owner ∈ ((idempotencyMiddleware parse k req).advances (List.replicate 2 Answer.fine)
    (empty.set (req.cacheKey key) (some e))).2.trace := by
  rw [idempotencyMiddleware,hk]
  have hr (f : Answer Body → World κ Body → Except Unit (Option (Entry κ Body)) × World κ Body)
      (w : World κ Body) : ((tryCatch (Thread.statement (.get .before (req.cacheKey key)) f)
        fun _ => pure none : Program κ Body _).advance Answer.fine w).2 = (f Answer.fine w).2 := rfl
  show _ ∈ ((tryCatch (get k .before (req.cacheKey key)) fun _ => pure none :
    Program κ Body _).advance Answer.fine (empty.set (req.cacheKey key) (some e))).2.trace
  rw [get,hr]
  simp only [Answer.fine,redis_set_self]
  exact mem_append_right _ (mem_singleton.mpr rfl)

lemma advances_blocked (e : Entry κ Body) (hk : truthy req.header = some key) :
    .blocked k e.owner ∈ ((idempotencyMiddleware parse k req).advances
    (List.replicate 4 Answer.fine) (empty.set (req.lockKey key) (some e))).2.trace := by
  have hc : (empty.set (req.lockKey key) (some e)).redis (req.cacheKey key) = none :=
    redis_set_ne (req.cacheKey_ne_lockKey key) _ _
  rw [idempotencyMiddleware,hk]
  show _ ∈ (Thread.advances (List.replicate 2 Answer.fine)
    ((tryCatch (lookup k req key) _ >>= _ : Program κ Body Unit).advance Answer.fine _).1
    ((tryCatch (lookup k req key) _ >>= _ : Program κ Body Unit).advance Answer.fine _).2).2.trace
  rw [lookup,advance_get_none hc]
  show _ ∈ (setNx k (req.lockKey key) ((empty.set (req.lockKey key) (some e)).updateBreaker
    req.server CircuitBreaker.recordSuccess)).2.trace
  rw [setNx,redis_updateBreaker,redis_set_self]
  exact mem_append_right _ (mem_singleton.mpr rfl)

lemma not_isolated_of_uses {j} (hn : j ≠ k) {key'} (hk : truthy (requests j).header = some key)
    (hk' : truthy (requests k).header = some key')
    (h : (requests j).lockKey key = (requests k).cacheKey key' ∨
    (requests j).lockKey key = (requests k).lockKey key') : ∃ tns, ¬ Isolated j k
    ((requestPool parse requests empty).run noInterference tns).state := by
  rcases h with h | h
  · have hh := advances_hit parse (k := k) ⟨j,.lockToken⟩ hk'
    rw [← h,← run_second parse hn.symm hk 2] at hh
    exact ⟨_,fun hs => (hs _ hh).2.1 rfl⟩
  have hb := advances_blocked parse (k := k) ⟨j,.lockToken⟩ hk'
  rw [← h,← run_second parse hn.symm hk 4] at hb
  exact ⟨_,fun hs => (hs _ hb).2.2.2 rfl⟩

end

section
variable [DecidableEq κ] [DecidableEq Body] (parse : String → Body) (requests : κ → Incoming)
  {j k : κ}

/-- In every run of requests, two of them are isolated exactly if they do not meet. Requests with
the same principal, method, route and header meet. -/
theorem isolated_iff (hne : j ≠ k) : (∀ turns : List (Turn κ (Answer Body) Empty), Isolated j k
      ((requestPool parse (fun k => (requests k).toRequest) World.empty).run noInterference
      turns).state) ↔ ¬ Meet (requests j).toRequest (requests k).toRequest := by
  rw [meet_iff_uses]
  constructor
  · rintro hs ⟨name,⟨key,hk,hn⟩,key',hkey',hname'⟩
    have hl : (requests j).cacheKey key = (requests k).cacheKey key' →
        (requests j).lockKey key = (requests k).lockKey key' := congrArg (· ++ ":inflight")
    have hm : ∀ {j k : κ}, j ≠ k → (∀ turns : List (Turn κ (Answer Body) Empty), Isolated j k
          ((requestPool parse (fun k => (requests k).toRequest) World.empty).run noInterference
            turns).state) → ∀ {key key'}, truthy (requests j).header = some key →
        truthy (requests k).header = some key' →
        ¬ ((requests j).lockKey key = (requests k).cacheKey key' ∨
          (requests j).lockKey key = (requests k).lockKey key') := by
      intro j k hne hs key key' hk hkey' h
      obtain ⟨turns,ht⟩ : ∃ turns : List (Turn κ (Answer Body) Empty), ¬ Isolated j k
          ((requestPool parse (fun k => (requests k).toRequest) World.empty).run noInterference
            turns).state := not_isolated_of_uses parse hne hk hkey' h
      exact ht (hs turns)
    rcases hn with rfl | rfl
    · rcases hname' with h | h
      · exact hm hne hs hk hkey' (.inr (hl h))
      · exact hm hne.symm (fun turns => (hs turns).symm) hkey' hk (.inl h.symm)
    · exact hm hne hs hk hkey' hname'
  · intro hm turns e he
    have ha := (owned_run parse turns).trace e he
    refine ⟨?_,?_,?_,?_⟩
    · rintro rfl
      exact hm ha
    · rintro rfl
      obtain ⟨name,hn,hname'⟩ := ha
      exact hm ⟨name,hname',hn⟩
    · rintro rfl
      exact hm ha
    · rintro rfl
      obtain ⟨name,hn,hname'⟩ := ha
      exact hm ⟨name,hname',hn⟩

end

def repayment (publicKey key : String) (hkey : '/' ∉ publicKey.toList) : Incoming where
  server := 0
  header := some key
  publicKey := some publicKey
  ip := some "::1"
  method := "POST"
  baseUrl := "/api/loans"
  path := "/7/repay"
  originalUrl := "/api/loans/7/repay"
  publicKey_slash := by
    intro text htext
    cases htext
    exact hkey
  ip_slash := by decide
  method_slash := by decide
  method_colon := by decide
  baseUrl_rooted := by decide
  path_rooted := by decide

theorem isolated_users : Differ (repayment "GBORROWER" "k" (by decide)).toRequest
    (repayment "GLENDER" "k" (by decide)).toRequest ∧
    ∀ turns : List (Turn Bool (Answer String) Empty), Isolated false true
    ((requestPool id (fun k => (cond k (repayment "GBORROWER" "k" (by decide))
    (repayment "GLENDER" "k" (by decide))).toRequest) World.empty).run noInterference
    turns).state :=
  ⟨.inl (by decide),(isolated_iff id (fun k => cond k (repayment "GBORROWER" "k" (by decide))
    (repayment "GLENDER" "k" (by decide))) (by decide)).mpr (by
      rintro ⟨key,hkey,key',hkey',hprincipal,-⟩
      exact absurd hprincipal (by decide))⟩

/-- A client's second request reads the lock of its first one as a response. -/
theorem lock_read_as_response : ¬ ∀ r r' : Incoming, Differ r.toRequest r'.toRequest →
    ∀ turns : List (Turn Bool (Answer String) Empty), Isolated false true
    ((requestPool id (fun k => (cond k r r').toRequest) World.empty).run noInterference
    turns).state := by
  intro h
  have hs := h (repayment "GBORROWER" "k:inflight" (by decide))
    (repayment "GBORROWER" "k" (by decide)) (.inr (.inr (.inr (by decide))))
    (List.replicate 4 (.step false Answer.fine) ++ List.replicate 2 (.step true Answer.fine))
  exact (hs (.hit true false) (by decide +kernel)).2.1 rfl

end DukaPay.Backend.Idempotency
