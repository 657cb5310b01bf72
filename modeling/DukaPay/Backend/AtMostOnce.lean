import DukaPay.Backend.Idempotency

/-! One effective execution for each key: requests with the same keys in Redis share one stored
response and one lock. -/
namespace DukaPay.Backend.Idempotency
open Contractlib Discipline List World
variable {κ Body : Type}

def effective : Event κ Body → Bool
  | .finished _ status _ => decide (status < 500)
  | _ => false

def Honours : Event κ Body → Event κ Body → Prop
  | .stored status sent,.answered _ reply =>
    (∃ body, sent = .json body ∧ reply = .replayed status body) ∨ reply = .conflict ∨
      reply = .unavailable
  | _,_ => True

/-- The read after a reservation does not fail; a handler that finishes with a status below 500 has
answered with `res.json` and a status that is stored. -/
def Reliable (_ : κ) (_ : World κ Body) : Command → Answer Body → Prop
  | .get .reserved _,i => i.fault = .none
  | .handler,i => i.status < 500 → 200 ≤ i.status ∧ ∃ body, i.sent = .json body
  | _,_ => True

instance (sent : Sent Body) : Decidable (∃ body, sent = .json body) :=
  match sent with
  | .json body => .isTrue ⟨body,rfl⟩
  | .send _ => .isFalse fun ⟨_,h⟩ => by cases h
  | .nothing => .isFalse fun ⟨_,h⟩ => by cases h

instance (k : κ) (w : World κ Body) (c : Command) (i : Answer Body) :
    Decidable (Reliable k w c i) :=
  match c with
  | .get .reserved _ => inferInstanceAs (Decidable (i.fault = .none))
  | .handler => inferInstanceAs (Decidable (_ → _))
  | .get .before _ | .get .occupied _ | .breaker | .setNx _ | .setEx _ | .compareAndDelete _
  | .reply => .isTrue trivial

section
variable (cacheKey lockKey : String)

def World.executions (w : World κ Body) : List (Event κ Body) := w.trace.filter effective

structure Sound (w : World κ Body) : Prop where
  once : w.executions.length ≤ 1
  free : w.redis lockKey = none → w.executions = [] ∨ w.redis cacheKey ≠ none
  response : ∀ e, w.redis cacheKey = some e → ∃ status body, e.value = .response status body ∧
    .stored status (.json body) ∈ w.trace
  stored : ∀ status sent, .stored status sent ∈ w.trace → ∃ owner body, sent = .json body ∧
    w.redis cacheKey = some ⟨owner,.response status body⟩
  genuine : ∀ status sent, .stored status sent ∈ w.trace → ∃ k, .finished k status sent ∈ w.trace
  honours : w.trace.Pairwise Honours

structure Respects (k : κ) (w w' : World κ Body) : Prop where
  stored : ∀ e, w.redis cacheKey = some e → w'.redis cacheKey = some e
  locked : w.redis lockKey = some ⟨k,.lockToken⟩ → w'.redis lockKey = w.redis lockKey ∧
    w'.redis cacheKey = w.redis cacheKey ∧ w'.executions = w.executions

def sharing : Discipline κ Command (Answer Body) (World κ Body) where
  inv := Sound cacheKey lockKey
  guar _ _ := True
  rely := Respects cacheKey lockKey
  permits := Reliable
  guar_refl _ := trivial
  guar_trans _ _ := trivial
  rely_refl _ _ := ⟨fun _ h => h,fun _ => ⟨rfl,rfl,rfl⟩⟩
  rely_trans h h' := by
    refine ⟨fun e he => h'.stored e (h.stored e he),fun hlock => ?_⟩
    obtain ⟨hlock',hcache,hexecutions⟩ := h.locked hlock
    obtain ⟨hlock'',hcache',hexecutions'⟩ := h'.locked (hlock'.trans hlock)
    exact ⟨hlock''.trans hlock',hcache'.trans hcache,hexecutions'.trans hexecutions⟩

variable {cacheKey lockKey} {w w' : World κ Body} {k : κ}

lemma sound_empty : Sound cacheKey lockKey (empty : World κ Body) where
  once := Nat.zero_le 1
  free _ := .inl rfl
  response e he := by cases he
  stored status sent h := by cases h
  genuine status sent h := by cases h
  honours := .nil

lemma keeps_note {e} (h : Sound cacheKey lockKey w) (hf : effective e = false)
    (hs : ∀ st sent, e ≠ .stored st sent) (hh : ∀ e' ∈ w.trace, Honours e' e) :
    (sharing cacheKey lockKey).Keeps k w (w.note e) := by
  have hx : (w.note e).executions = w.executions := by simp [executions,filter_append,hf]
  refine ⟨⟨?_,?_,?_,?_,?_,?_⟩,trivial,fun j _ => ⟨fun _ h => h,fun _ => ⟨rfl,rfl,hx⟩⟩⟩
  · rw [hx]
    exact h.once
  · rw [hx]
    exact h.free
  · intro ent hn
    obtain ⟨st,body,hv,hm⟩ := h.response ent hn
    exact ⟨st,body,hv,mem_append_left _ hm⟩
  · intro st sent hm
    rcases mem_append.mp hm with hm | hm
    · exact h.stored st sent hm
    · exact absurd (mem_singleton.mp hm).symm (hs st sent)
  · intro st sent hm
    rcases mem_append.mp hm with hm | hm
    · obtain ⟨k,hk⟩ := h.genuine st sent hm
      exact ⟨k,mem_append_left _ hk⟩
    · exact absurd (mem_singleton.mp hm).symm (hs st sent)
  · refine pairwise_append.mpr ⟨h.honours,pairwise_singleton _ _,fun e' he' e'' he'' => ?_⟩
    rw [mem_singleton.mp he'']
    exact hh e' he'

lemma keeps_same (h : Sound cacheKey lockKey w) (hr : w'.redis = w.redis)
    (ht : w'.trace = w.trace) : (sharing cacheKey lockKey).Keeps k w w' := by
  have he : w'.executions = w.executions := by rw [executions,ht]; rfl
  refine ⟨⟨?_,?_,?_,?_,?_,?_⟩,trivial,fun j _ => ⟨?_,?_⟩⟩
  · rw [he]
    exact h.once
  · rw [he,hr]
    exact h.free
  · rw [hr,ht]
    exact h.response
  · rw [hr,ht]
    exact h.stored
  · rw [ht]
    exact h.genuine
  · rw [ht]
    exact h.honours
  · rw [hr]
    exact fun _ h => h
  · rw [hr]
    exact fun _ => ⟨rfl,rfl,he⟩

variable (cacheKey) in
def Settled (w : World κ Body) : Prop := w.executions = [] ∨ w.redis cacheKey ≠ none

variable (lockKey) in
def Holds (k : κ) (w : World κ Body) : Prop := w.redis lockKey = some ⟨k,.lockToken⟩

lemma Holds.of_respects (h : Holds lockKey k w) (hr : Respects cacheKey lockKey k w w') :
    Holds lockKey k w' := (hr.locked h).1.trans h

lemma Settled.of_respects (h : Settled cacheKey w) (hh : Holds lockKey k w)
    (hr : Respects cacheKey lockKey k w w') : Settled cacheKey w' := by
  obtain ⟨-,hc,he⟩ := hr.locked hh
  rw [Settled,hc,he]
  exact h

lemma Holds.respects_of_ne {j} (h : Holds lockKey k w) (hj : j ≠ k)
    (hs : ∀ e, w.redis cacheKey = some e → w'.redis cacheKey = some e) :
    Respects cacheKey lockKey j w w' := by
  refine ⟨hs,fun hl => ?_⟩
  rw [Holds,hl] at h
  cases h
  exact absurd rfl hj

lemma keeps_reserve (he : cacheKey ≠ lockKey) (h : Sound cacheKey lockKey w)
    (hf : w.redis lockKey = none) :
    (sharing cacheKey lockKey).Keeps k w (w.set lockKey (some ⟨k,.lockToken⟩)) := by
  have hc := w.redis_set_ne he (some ⟨k,.lockToken⟩)
  refine ⟨⟨h.once,?_,?_,?_,h.genuine,h.honours⟩,trivial,fun j _ => ⟨?_,?_⟩⟩
  · rw [redis_set_self]
    intro hn
    cases hn
  · rw [hc]
    exact h.response
  · rw [hc]
    exact h.stored
  · rw [hc]
    exact fun _ h => h
  · rw [hf]
    intro hl
    cases hl

lemma keeps_release (hn : cacheKey ≠ lockKey) (h : Sound cacheKey lockKey w)
    (hh : Holds lockKey k w) (hs : Settled cacheKey w) :
    (sharing cacheKey lockKey).Keeps k w (w.set lockKey none) := by
  have hc := w.redis_set_ne hn none
  refine ⟨⟨h.once,fun _ => ?_,?_,?_,h.genuine,h.honours⟩,trivial,
    fun j hj => hh.respects_of_ne hj ?_⟩
  · rw [hc]
    exact hs
  · rw [hc]
    exact h.response
  · rw [hc]
    exact h.stored
  · rw [hc]
    exact fun _ h => h

lemma Sound.not_stored (h : Sound cacheKey lockKey w) (hn : w.redis cacheKey = none)
    (st sent) : .stored st sent ∉ w.trace := by
  intro hm
  obtain ⟨_,_,-,hs⟩ := h.stored st sent hm
  rw [hn] at hs
  cases hs

lemma honours_of_not_answered {e e' : Event κ Body} (h : ∀ k reply, e' ≠ .answered k reply) :
    Honours e e' := by
  cases e' with
  | answered k reply => exact absurd rfl (h k reply)
  | hit => cases e <;> trivial
  | blocked => cases e <;> trivial
  | finished => cases e <;> trivial
  | stored => cases e <;> trivial

lemma honours_of_not_stored {e e' : Event κ Body} (h : ∀ status sent, e ≠ .stored status sent) :
    Honours e e' := by
  cases e with
  | stored status sent => exact absurd rfl (h status sent)
  | hit => trivial
  | blocked => trivial
  | finished => trivial
  | answered => trivial

def World.finish (w : World κ Body) (k : κ) (status : Nat) (sent : Sent Body) : World κ Body :=
  (w.note (.finished k status sent)).note (.answered k (.fresh status sent))

lemma executions_finish (k : κ) (st sent) : (w.finish k st sent).executions =
    w.executions ++ if st < 500 then [.finished k st sent] else [] := by
  show (w.trace ++ [_] ++ [_]).filter effective = _
  rw [filter_append,filter_append,append_assoc]
  congr 1
  by_cases hs : st < 500
  · simp [effective,hs]
  · simp [effective,hs]

lemma keeps_finish (h : Sound cacheKey lockKey w) (hh : Holds lockKey k w)
    (hn : w.redis cacheKey = none) (hs : w.executions = []) (st)
    (sent) : (sharing cacheKey lockKey).Keeps k w (w.finish k st sent) := by
  have ho := h.not_stored hn
  have ht : ∀ st' sent', .stored st' sent' ∉ (w.finish k st sent).trace := by
    intro st' sent' hm
    rcases mem_append.mp hm with hm | hm
    · rcases mem_append.mp hm with hm | hm
      · exact ho st' sent' hm
      · cases mem_singleton.mp hm
    · cases mem_singleton.mp hm
  refine ⟨⟨?_,fun hf => ?_,fun e he => ?_,fun st' sent' hm => ?_,
    fun st' sent' hm => ?_,?_⟩,trivial,fun j hj => hh.respects_of_ne hj fun _ h => h⟩
  · rw [executions_finish,hs]
    split
    · exact Nat.le_refl 1
    · exact Nat.zero_le 1
  · have hl : w.redis lockKey = none := hf
    rw [hh] at hl
    cases hl
  · have hc : w.redis cacheKey = some e := he
    rw [hn] at hc
    cases hc
  · exact absurd hm (ht st' sent')
  · exact absurd hm (ht st' sent')
  · refine pairwise_append.mpr ⟨pairwise_append.mpr
      ⟨h.honours,pairwise_singleton _ _,fun e _ e' he' => ?_⟩,
      pairwise_singleton _ _,fun e he e' _ => honours_of_not_stored ?_⟩
    · rw [mem_singleton.mp he']
      exact honours_of_not_answered fun _ _ h => by cases h
    · rintro st' sent' rfl
      exact ht st' sent' (mem_append_left _ he)

lemma keeps_store (hne : cacheKey ≠ lockKey) (h : Sound cacheKey lockKey w)
    (hh : Holds lockKey k w) (hn : w.redis cacheKey = none) {st : Nat} {body : Body}
    (hl : w.executions = [.finished k st (.json body)]) : (sharing cacheKey lockKey).Keeps k w
    ((w.set cacheKey (some ⟨k,.response st body⟩)).note (.stored st (.json body))) := by
  have ho := h.not_stored hn
  have hk : (w.set cacheKey (some ⟨k,.response st body⟩)).redis lockKey = w.redis lockKey :=
    w.redis_set_ne hne.symm _
  have hx : ((w.set cacheKey (some ⟨k,.response st body⟩)).note
      (.stored st (.json body))).executions = w.executions := by
    simp [executions,filter_append,effective]
  refine ⟨⟨?_,fun hr => ?_,fun e he => ?_,fun st' sent hm => ?_,
    fun st' sent hm => ?_,?_⟩,trivial,fun j hj => hh.respects_of_ne hj fun e he => ?_⟩
  · rw [hx]
    exact h.once
  · rw [redis_note,hk,hh] at hr
    cases hr
  · rw [redis_note,redis_set_self] at he
    cases he
    exact ⟨st,body,rfl,mem_append_right _ (mem_singleton_self _)⟩
  · rcases mem_append.mp hm with hm | hm
    · exact absurd hm (ho st' sent)
    · cases mem_singleton.mp hm
      exact ⟨k,body,rfl,redis_set_self _ _ _⟩
  · rcases mem_append.mp hm with hm | hm
    · exact absurd hm (ho st' sent)
    cases mem_singleton.mp hm
    have hf : .finished k st (.json body) ∈ w.executions := by
      rw [hl]
      exact mem_singleton_self _
    exact ⟨k,mem_append_left _ (mem_filter.mp hf).1⟩
  · refine pairwise_append.mpr ⟨h.honours,pairwise_singleton _ _,fun e _ e' he' => ?_⟩
    rw [mem_singleton.mp he']
    exact honours_of_not_answered fun _ _ h => by cases h
  · rw [hn] at he
    cases he

lemma keeps_hit (h : Sound cacheKey lockKey w) (owner : κ) :
    (sharing cacheKey lockKey).Keeps k w (w.note (.hit k owner)) := by
  refine keeps_note h rfl (fun _ _ h => ?_) fun _ _ => honours_of_not_answered fun _ _ h => ?_
  · cases h
  · cases h

lemma keeps_blocked (h : Sound cacheKey lockKey w) (owner : κ) :
    (sharing cacheKey lockKey).Keeps k w (w.note (.blocked k owner)) := by
  refine keeps_note h rfl (fun _ _ h => ?_) fun _ _ => honours_of_not_answered fun _ _ h => ?_
  · cases h
  · cases h

end

section
variable {cacheKey lockKey : String} {w : World κ Body} {k : κ} {epost : Unit → World κ Body → Prop}

lemma ensures_breaker {α : Type} {f : Answer Body → World κ Body → Except Unit α × World κ Body}
    (ho : ∀ i w, ∃ a, (f i w).1 = .ok a)
    (hs : ∀ i w, (f i w).2.redis = w.redis ∧ (f i w).2.trace = w.trace) (P : World κ Body → Prop)
    (hb : ∀ w w', Respects cacheKey lockKey k w w' → P w → P w') (h : P w) :
    (sharing cacheKey lockKey).Ensures k (fun _ => P) epost (.statement .breaker f) w := by
  refine ensures_statement fun w1 hw1 hd i _ => ?_
  obtain ⟨hr,ht⟩ := hs i w1
  have hk : Respects cacheKey lockKey k w1 (f i w1).2 := by
    refine ⟨?_,?_⟩
    · rw [hr]
      exact fun _ h => h
    · rw [hr,executions,ht]
      exact fun _ => ⟨rfl,rfl,rfl⟩
  refine ⟨keeps_same hd hr ht,fun w2 hw2 _ => ⟨fun a _ => ?_,fun e he => ?_⟩⟩
  · exact hb _ _ hw2 (hb _ _ hk (hb _ _ hw1 h))
  · obtain ⟨a,ha⟩ := ho i w1
    rw [ha] at he
    cases he

lemma ensures_isOpen (req) :
    (sharing cacheKey lockKey).Ensures k (fun _ _ => True) epost (isOpen req) w :=
  ensures_breaker (fun _ _ => ⟨_,rfl⟩) (fun _ _ => ⟨rfl,rfl⟩) _ (fun _ _ _ h => h) trivial

lemma ensures_recordSuccess (req P)
    (hs : ∀ w w', Respects cacheKey lockKey k w w' → P w → P w') (h : P w) :
    (sharing cacheKey lockKey).Ensures k (fun _ => P) epost (recordSuccess req) w :=
  ensures_breaker (fun _ _ => ⟨_,rfl⟩) (fun _ _ => ⟨rfl,rfl⟩) P hs h

lemma ensures_recordFailure (req) :
    (sharing cacheKey lockKey).Ensures k (fun _ _ => True) epost (recordFailure req) w :=
  ensures_breaker (fun _ _ => ⟨_,rfl⟩) (fun _ _ => ⟨rfl,rfl⟩) _ (fun _ _ _ h => h) trivial

lemma ensures_get (read) : (sharing cacheKey lockKey).Ensures k
    (fun r w' => ∀ e, r = some e → w'.redis cacheKey = some e) epost (get k read cacheKey) w := by
  refine ensures_statement fun w1 hw1 hs i _ => ?_
  split
  · next e hf hn =>
    refine ⟨keeps_hit hs e.owner,fun w2 hw2 _ => ⟨?_,fun e he => (by cases he)⟩⟩
    rintro r hr e' rfl
    cases hr
    exact hw2.stored e hn
  · refine ⟨keeps_same hs rfl rfl,fun w2 _ _ => ⟨?_,fun e he => (by cases he)⟩⟩
    rintro r hr e rfl
    cases hr

lemma ensures_get_reserved (hh : Holds lockKey k w) (hst : Settled cacheKey w) :
    (sharing cacheKey lockKey).Ensures k
    (fun r w' => w'.redis cacheKey = r ∧ Holds lockKey k w' ∧ Settled cacheKey w') epost
    (get k .reserved cacheKey) w := by
  refine ensures_statement fun w1 hw1 hs i hi => ?_
  have hh1 : Holds lockKey k w1 := hh.of_respects hw1
  have hs1 : Settled cacheKey w1 := hst.of_respects hh hw1
  have hf : i.fault = .none := hi
  rw [hf]
  cases hn : w1.redis cacheKey with
  | some e =>
    refine ⟨keeps_hit hs e.owner,fun w2 hw2 _ => ⟨?_,fun e he => (by cases he)⟩⟩
    rintro r hr
    cases hr
    have hs2 := hw2.stored e hn
    have ht : Holds lockKey k (w1.note (.hit k e.owner)) := hh1
    exact ⟨hs2,ht.of_respects hw2,.inr (by rw [hs2]; exact Option.some_ne_none e)⟩
  | none =>
    refine ⟨keeps_same hs rfl rfl,fun w2 hw2 _ => ⟨?_,fun e he => (by cases he)⟩⟩
    rintro r hr
    cases hr
    exact ⟨(hw2.locked hh1).2.1.trans hn,hh1.of_respects hw2,hs1.of_respects hh1 hw2⟩

lemma keeps_setNx (hn : cacheKey ≠ lockKey) (h : Sound cacheKey lockKey w) :
    (sharing cacheKey lockKey).Keeps k w (setNx k lockKey w).2 ∧
    ((setNx k lockKey w).1 = true → Holds lockKey k (setNx k lockKey w).2 ∧
    Settled cacheKey (setNx k lockKey w).2) := by
  rw [setNx]
  cases hl : w.redis lockKey with
  | none =>
    refine ⟨keeps_reserve hn h hl,fun _ => ⟨redis_set_self _ _ _,?_⟩⟩
    rw [Settled,redis_set_ne hn]
    exact h.free hl
  | some e =>
    refine ⟨keeps_blocked h e.owner,fun ht => ?_⟩
    cases ht

lemma ensures_reserve (hn : cacheKey ≠ lockKey) : (sharing cacheKey lockKey).Ensures k
    (fun acq w' => acq = true → Holds lockKey k w' ∧ Settled cacheKey w')
    (fun _ _ => True) (reserve k lockKey) w := by
  refine ensures_statement fun w1 _ hs i _ => ?_
  obtain ⟨hk,htk⟩ := keeps_setNx (k := k) hn hs
  cases i.fault with
  | none =>
    refine ⟨hk,fun w2 hw2 _ => ⟨?_,fun e he => (by cases he)⟩⟩
    rintro acq hc hr
    cases hc
    obtain ⟨hh,ht⟩ := htk hr
    exact ⟨hh.of_respects hw2,ht.of_respects hh hw2⟩
  | lost =>
    exact ⟨keeps_same hs rfl rfl,fun _ _ _ => ⟨fun a ha => (by cases ha),fun _ _ => trivial⟩⟩
  | late => exact ⟨hk,fun _ _ _ => ⟨fun a ha => (by cases ha),fun _ _ => trivial⟩⟩

lemma ensures_answer {rp} (P : World κ Body → Prop)
    (hs : ∀ w w', Respects cacheKey lockKey k w w' → P w → P w') (h : P w)
    (hh : ∀ w, P w → Sound cacheKey lockKey w → ∀ e ∈ w.trace, Honours e (.answered k rp)) :
    (sharing cacheKey lockKey).Ensures k (fun _ _ => True) epost (answer k rp) w := by
  refine ensures_statement fun w1 hw1 hd i _ => ?_
  refine ⟨keeps_note hd rfl (fun _ _ h => (by cases h)) ?_,
    fun _ _ _ => ⟨fun _ _ => trivial,fun e he => (by cases he)⟩⟩
  exact hh w1 (hs w w1 hw1 h) hd

lemma ensures_reject {reply} (h : reply = .conflict ∨ reply = .unavailable) :
    (sharing cacheKey lockKey).Ensures k (fun _ _ => True) epost (answer k reply) w := by
  refine ensures_answer (fun _ => True) (fun _ _ _ h => h) trivial fun _ _ _ e _ => ?_
  cases e with
  | stored => exact .inr h
  | hit => trivial
  | blocked => trivial
  | finished => trivial
  | answered => trivial

lemma ensures_replay {e} (h : w.redis cacheKey = some e) :
    (sharing cacheKey lockKey).Safe k (replay k e) w := by
  rw [replay]
  cases hv : e.value with
  | lockToken => exact ensures_throw fun _ _ _ => trivial
  | response status body =>
    refine ensures_answer (fun w => w.redis cacheKey = some e) (fun _ _ hr h => hr.stored e h) h
      fun w1 hs hsd e' he' => ?_
    cases e' with
    | stored st' sent =>
      obtain ⟨_,_,rfl,he⟩ := hsd.stored st' sent he'
      rw [hs] at he
      cases he
      cases hv
      exact .inl ⟨body,rfl,rfl⟩
    | hit => trivial
    | blocked => trivial
    | finished => trivial
    | answered => trivial

lemma ensures_deleteIfMatch [DecidableEq κ] [DecidableEq Body] (hne : cacheKey ≠ lockKey)
    (hh : Holds lockKey k w) (ht : Settled cacheKey w) : (sharing cacheKey lockKey).Ensures k
    (fun _ w' => ∀ e, w.redis cacheKey = some e → w'.redis cacheKey = some e) epost
    (deleteIfMatch k lockKey) w := by
  refine ensures_statement fun w1 hw1 hs i _ => ?_
  have hh1 : Holds lockKey k w1 := hh.of_respects hw1
  have hs1 : Settled cacheKey w1 := ht.of_respects hh hw1
  have hn : w1.redis lockKey = some ⟨k,.lockToken⟩ := hh1
  have hd : (compareAndDelete k lockKey w1).2 = w1.set lockKey none := by
    rw [compareAndDelete,if_pos hn]
  have ho : ∀ e, w.redis cacheKey = some e → (w1.set lockKey none).redis cacheKey = some e := by
    intro e he
    rw [redis_set_ne hne]
    exact hw1.stored e he
  have hr : (sharing cacheKey lockKey).Keeps k w1 (w1.set lockKey none) ∧
      ∀ w2, Respects cacheKey lockKey k (w1.set lockKey none) w2 →
        ∀ e, w.redis cacheKey = some e → w2.redis cacheKey = some e :=
    ⟨keeps_release hne hs hh1 hs1,fun w2 hw2 e he => hw2.stored e (ho e he)⟩
  cases i.fault with
  | none =>
    simp only [hd]
    exact ⟨hr.1,fun w2 hw2 _ => ⟨fun _ _ => hr.2 w2 hw2,fun e he => (by cases he)⟩⟩
  | late =>
    simp only [hd]
    exact ⟨hr.1,fun w2 hw2 _ => ⟨fun _ _ => hr.2 w2 hw2,fun e he => (by cases he)⟩⟩
  | lost =>
    exact ⟨keeps_same hs rfl rfl,fun w2 hw2 _ =>
      ⟨fun _ _ e he => hw2.stored e (hw1.stored e he),fun e he => (by cases he)⟩⟩

structure Ready (cacheKey lockKey : String) (k : κ) (w : World κ Body) : Prop where
  holds : Holds lockKey k w
  missing : w.redis cacheKey = none
  first : w.executions = []

lemma Ready.of_respects {w'} (h : Ready cacheKey lockKey k w)
    (hr : Respects cacheKey lockKey k w w') : Ready cacheKey lockKey k w' := by
  obtain ⟨-,hc,he⟩ := hr.locked h.holds
  exact ⟨h.holds.of_respects hr,hc.trans h.missing,he.trans h.first⟩

variable {req : Request} {key : String}

lemma ensures_whenOccupied (hc : req.cacheKey key = cacheKey) : (sharing cacheKey lockKey).Ensures k
    (fun proceed w' => proceed = true → Ready cacheKey lockKey k w') (fun _ _ => True)
    (whenOccupied k req key) w := by
  rw [whenOccupied,hc]
  have hj : ∀ w', (sharing cacheKey lockKey).Ensures k
      (fun proceed w' => proceed = true → Ready cacheKey lockKey k w') (fun _ _ => True)
      (pure false : Program κ Body Bool) w' :=
    fun w' => ensures_pure fun _ _ _ h => (by cases h)
  refine ensures_bind ((ensures_get .occupied).mono (fun r w1 _ hr => ?_) fun _ _ _ h => h)
  cases r with
  | some e =>
    exact ensures_bind ((ensures_replay (hr e rfl)).mono (fun _ w2 _ _ => hj w2) fun _ _ _ h => h)
  | none =>
    exact ensures_bind ((ensures_reject (.inl rfl)).mono (fun _ w2 _ _ => hj w2) fun _ _ _ h => h)

lemma ensures_whenReserved [DecidableEq κ] [DecidableEq Body] (hn : cacheKey ≠ lockKey)
    (hc : req.cacheKey key = cacheKey) (hl : req.lockKey key = lockKey)
    (hh : Holds lockKey k w) (ht : Settled cacheKey w) : (sharing cacheKey lockKey).Ensures k
    (fun proceed w' => proceed = true → Ready cacheKey lockKey k w') (fun _ _ => True)
    (whenReserved k req key) w := by
  rw [whenReserved,hc,hl]
  refine ensures_bind ((ensures_get_reserved hh ht).mono (fun r w1 _ hr => ?_) fun _ _ _ h => h)
  obtain ⟨hs1,hh1,hse1⟩ := hr
  cases r with
  | some e =>
    refine ensures_bind ((ensures_deleteIfMatch hn hh1 hse1).mono
      (fun _ w2 _ hw2 => ?_) fun _ _ _ h => h)
    refine ensures_bind ((ensures_replay (hw2 e hs1)).mono (fun _ w3 _ _ => ?_) fun _ _ _ h => h)
    exact ensures_pure fun _ _ _ h => (by cases h)
  | none =>
    -- nothing is stored, so nothing that counts was executed
    have hf : w1.executions = [] := hse1.resolve_right fun hs => hs hs1
    have hd : Ready cacheKey lockKey k w1 := ⟨hh1,hs1,hf⟩
    exact ensures_pure fun w2 hw2 _ _ => hd.of_respects hw2

lemma ensures_lookup [DecidableEq κ] [DecidableEq Body] (hn : cacheKey ≠ lockKey)
    (hc : req.cacheKey key = cacheKey) (hl : req.lockKey key = lockKey) :
    (sharing cacheKey lockKey).Ensures k
    (fun proceed w' => proceed = true → Ready cacheKey lockKey k w') (fun _ _ => True)
    (lookup k req key) w := by
  rw [lookup,hc,hl]
  refine ensures_bind ((ensures_get .before).mono (fun r w1 _ hr => ?_) fun _ _ _ h => h)
  refine ensures_bind ((ensures_recordSuccess req
    (fun w => ∀ e, r = some e → w.redis cacheKey = some e)
    (fun _ _ hre h e he => hre.stored e (h e he)) hr).mono (fun _ w2 _ hw2 => ?_) fun _ _ _ h => h)
  cases r with
  | some e =>
    refine ensures_bind ((ensures_replay (hw2 e rfl)).mono (fun _ w3 _ _ => ?_) fun _ _ _ h => h)
    exact ensures_pure fun _ _ _ h => (by cases h)
  | none =>
    refine ensures_bind ((ensures_reserve hn).mono (fun acq w3 _ hw3 => ?_) fun _ _ _ h => h)
    cases acq with
    | true =>
      obtain ⟨hh,hs⟩ := hw3 rfl
      exact ensures_whenReserved hn hc hl hh hs
    | false => exact ensures_whenOccupied hc

lemma ensures_handler (h : Ready cacheKey lockKey k w) : (sharing cacheKey lockKey).Ensures k
    (fun resp w' => Holds lockKey k w' ∧ w'.redis cacheKey = none ∧
    ((200 ≤ resp.1 ∧ resp.1 < 500 ∧ ∃ body, resp.2 = .json body ∧
    w'.executions = [.finished k resp.1 (.json body)]) ∨
    (500 ≤ resp.1 ∧ w'.executions = []))) epost (handler k) w := by
  refine ensures_statement fun w1 hw1 hd i hi => ?_
  have hr : Ready cacheKey lockKey k w1 := h.of_respects hw1
  have hf : Holds lockKey k (w1.finish k i.status i.sent) := hr.holds
  refine ⟨keeps_finish hd hr.holds hr.missing hr.first i.status i.sent,
    fun w2 hw2 _ => ⟨?_,fun e he => (by cases he)⟩⟩
  obtain ⟨-,hc,hx⟩ := hw2.locked hf
  rintro resp hs
  cases hs
  refine ⟨hf.of_respects hw2,hc.trans hr.missing,?_⟩
  have hl := hx.trans (executions_finish k i.status i.sent)
  rw [hr.first,nil_append] at hl
  by_cases ht : i.status < 500
  · obtain ⟨ho,body,hb⟩ := hi ht
    rw [if_pos ht,hb] at hl
    exact .inl ⟨ho,ht,body,hb,hl⟩
  · rw [if_neg ht] at hl
    exact .inr ⟨Nat.le_of_not_lt ht,hl⟩

lemma ensures_store (hne : cacheKey ≠ lockKey) (hc : req.cacheKey key = cacheKey)
    {st body} (hh : Holds lockKey k w) (hn : w.redis cacheKey = none)
    (hl : w.executions = [.finished k st (.json body)]) : (sharing cacheKey lockKey).Ensures k
    (fun sto w' => sto = true → Holds lockKey k w' ∧ w'.redis cacheKey ≠ none)
    epost (store k req key st (.json body) body) w := by
  rw [store,hc]
  refine ensures_tryCatch (ensures_bind ?_)
  have hf : ∀ w', (sharing cacheKey lockKey).Ensures k
      (fun sto w' => sto = true → Holds lockKey k w' ∧ w'.redis cacheKey ≠ none) epost
      (recordFailure req >>= fun _ => pure false : Program κ Body Bool) w' := fun w' =>
    ensures_bind ((ensures_recordFailure req).mono
      (fun _ _ _ _ => ensures_pure fun _ _ _ h => (by cases h)) fun _ _ _ h => h)
  refine ensures_statement fun w1 hw1 hs i _ => ?_
  obtain ⟨-,hc1,hx1⟩ := hw1.locked hh
  have hh1 : Holds lockKey k w1 := hh.of_respects hw1
  have hk := keeps_store hne hs hh1 (hc1.trans hn) (hx1.trans hl)
  cases i.fault with
  | none =>
    refine ⟨hk,fun w2 hw2 _ => ⟨fun _ _ => ?_,fun e he => (by cases he)⟩⟩
    have ht : Holds lockKey k
        ((w1.set cacheKey (some ⟨k,.response st body⟩)).note (.stored st (.json body))) :=
      (w1.redis_set_ne hne.symm _).trans hh1
    have hs2 : w2.redis cacheKey = some ⟨k,.response st body⟩ :=
      hw2.stored _ (redis_set_self _ _ _)
    refine ensures_bind ((ensures_recordSuccess req
      (fun w => Holds lockKey k w ∧ w.redis cacheKey = some ⟨k,.response st body⟩)
      (fun _ _ hr h => ⟨h.1.of_respects hr,hr.stored _ h.2⟩)
      ⟨ht.of_respects hw2,hs2⟩).mono (fun _ w3 _ hw3 => ?_) fun _ _ _ h => h)
    refine ensures_pure fun w4 hw4 _ _ => ⟨hw3.1.of_respects hw4,?_⟩
    rw [hw4.stored _ hw3.2]
    exact Option.some_ne_none _
  | lost =>
    exact ⟨keeps_same hs rfl rfl,fun w2 _ _ => ⟨fun a ha => (by cases ha),fun _ _ => hf w2⟩⟩
  | late => exact ⟨hk,fun w2 _ _ => ⟨fun a ha => (by cases ha),fun _ _ => hf w2⟩⟩

variable [DecidableEq κ] [DecidableEq Body] (parse : String → Body)

lemma ensures_finish (hne : cacheKey ≠ lockKey) (hc : req.cacheKey key = cacheKey)
    (hk : req.lockKey key = lockKey) {st sent}
    (ho : Holds lockKey k w) (hn : w.redis cacheKey = none)
    (h : (200 ≤ st ∧ st < 500 ∧ ∃ body, sent = .json body ∧
    w.executions = [.finished k st (.json body)]) ∨ (500 ≤ st ∧ w.executions = [])) :
    (sharing cacheKey lockKey).Ensures k (fun _ _ => True) epost
    (finish parse k req key st sent) w := by
  have hd : ∀ {w'}, Holds lockKey k w' → Settled cacheKey w' →
      (sharing cacheKey lockKey).Ensures k (fun _ _ => True) epost
        (deleteIfMatch k lockKey >>= fun _ => pure () : Program κ Body Unit) w' :=
    fun hh' hs => ensures_bind ((ensures_deleteIfMatch hne hh' hs).mono
      (fun _ _ _ _ => ensures_pure fun _ _ _ => trivial) fun _ _ _ h => h)
  rw [finish,hk]
  rcases h with ⟨hlo,hh,body,rfl,hl⟩ | ⟨hh,he⟩
  · rw [if_pos ⟨hlo,hh⟩]
    refine ensures_bind ((ensures_store hne hc ho hn hl).mono
      (fun sto w1 _ hw1 => ?_) fun _ _ _ h => h)
    cases sto with
    | true =>
      obtain ⟨hh1,hs1⟩ := hw1 rfl
      exact hd hh1 (.inr hs1)
    | false => exact ensures_pure fun _ _ _ => trivial
  · rw [if_neg fun hcc => Nat.not_lt.mpr hh hcc.2]
    exact hd ho (.inl he)

lemma ensures_idempotencyMiddleware (hn : cacheKey ≠ lockKey) (hk : truthy req.header = some key)
    (hc : req.cacheKey key = cacheKey) (hl : req.lockKey key = lockKey) :
    (sharing cacheKey lockKey).Safe k (idempotencyMiddleware parse k req) w := by
  rw [idempotencyMiddleware,hk]
  refine ensures_bind ((ensures_isOpen req).mono (fun unavailable w1 _ _ => ?_) fun _ _ _ h => h)
  cases unavailable with
  | true => exact ensures_reject (.inr rfl)
  | false =>
    refine ensures_bind (ensures_tryCatch
      ((ensures_lookup hn hc hl).mono (fun proceed w2 _ hw2 => ?_) fun _ w2 _ _ => ?_))
    · cases proceed with
      | true =>
        refine ensures_bind ((ensures_handler (hw2 rfl)).mono (fun resp w3 _ hw3 => ?_)
          fun _ _ _ h => h)
        obtain ⟨hh3,hn3,hr⟩ := hw3
        exact ensures_finish parse hn hc hl hh3 hn3 hr
      | false => exact ensures_pure fun _ _ _ => trivial
    · -- an error of the lookup is answered with 503
      refine ensures_bind ((ensures_recordFailure req).mono (fun _ w3 _ _ => ?_) fun _ _ _ h => h)
      refine ensures_bind ((ensures_reject (.inr rfl)).mono (fun _ w4 _ _ => ?_) fun _ _ _ h => h)
      exact ensures_pure fun _ _ _ => ensures_pure fun _ _ _ => trivial

end

section

lemma undisturbed_noInterference {cacheKey lockKey} :
    (sharing cacheKey lockKey : Discipline κ _ _ (World κ Body)).Undisturbed noInterference
    (fun _ _ => True) :=
  fun _ e => e.elim

variable [DecidableEq κ] [DecidableEq Body]

/-- Along every run of requests with one key, in which the read after a reservation never fails and
handlers that finish with a status below 500 answer with `res.json`: at most one execution finishes
so, what is stored is its response, and every later answer replays it or rejects the request. -/
theorem executes_once (parse : String → Body) (requests : κ → Request)
    (principal method route key : String)
    (hscope : ∀ k, truthy (requests k).header = some key ∧ (requests k).principal = principal ∧
      (requests k).method = method ∧ (requests k).route = route)
    (turns : List (Turn κ (Answer Body) Empty))
    (hreliable : Pool.Legal noInterference Reliable (fun _ _ => True) turns
      (requestPool parse requests World.empty)) :
    let w := ((requestPool parse requests World.empty).run noInterference turns).state
    w.executions.length ≤ 1 ∧ w.trace.Pairwise Honours ∧
      ∀ status sent, .stored status sent ∈ w.trace → ∃ k, .finished k status sent ∈ w.trace := by
  let shared := "idemp:" ++ (principal ++ ":" ++ method ++ ":" ++ route) ++ ":" ++ key
  have hc : ∀ k, (requests k).cacheKey key = shared := by
    intro k
    obtain ⟨-,hp,hm,hr⟩ := hscope k
    rw [Request.cacheKey,Request.scope,hp,hm,hr]
  have hl : ∀ k, (requests k).lockKey key = shared ++ ":inflight" := by
    intro k
    rw [Request.lockKey,hc]
  have ht : (sharing shared (shared ++ ":inflight")).Obeyed (fun _ _ _ => True)
      (fun _ _ _ => True) (requestPool parse requests World.empty) := by
    refine ⟨sound_empty,fun k => ?_⟩
    refine ensures_idempotencyMiddleware parse ?_ (hscope k).1 (hc k) (hl k)
    rw [← hc k]
    exact (requests k).cacheKey_ne_lockKey key
  obtain ⟨-,hs,-⟩ := ht.run undisturbed_noInterference hreliable
  exact ⟨hs.once,hs.honours,hs.genuine⟩

end

def payment : Request :=
  ⟨0,some "payment-1",some "GBORROWER",none,"POST","/api/remittances","/","/api/remittances"⟩

def retryTurns (fault : Fault) : List (Turn Bool (Answer String) Empty) :=
  let answer : Answer String := ⟨.none,0,201,.json "created"⟩
  List.replicate 2 (.step true answer) ++ List.replicate 9 (.step false answer) ++
    List.replicate 2 (.step true answer) ++
    [.step true ⟨fault,0,201,.json "created"⟩,.step true answer,.step true answer]

theorem executes_once_retry :
    let start := requestPool id (fun _ : Bool => payment) World.empty
    let w := (start.run noInterference (retryTurns .none)).state
    Pool.Legal noInterference Reliable (fun _ _ => True) (retryTurns .none) start ∧
      w.executions.length ≤ 1 ∧ w.trace.Pairwise Honours ∧
      ∀ status sent, .stored status sent ∈ w.trace → ∃ k, .finished k status sent ∈ w.trace :=
  have hlegal : Pool.Legal noInterference Reliable (fun _ _ => True) (retryTurns .none)
      (requestPool id (fun _ : Bool => payment) World.empty) := by decide +kernel
  ⟨hlegal,executes_once id (fun _ => payment) "user:GBORROWER" "POST" "/api/remittances/"
    "payment-1" (fun _ => by decide +kernel) (retryTurns .none) hlegal⟩

/-- A single failed read is enough for a second execution. -/
theorem executes_twice : ¬ ∀ turns : List (Turn Bool (Answer String) Empty),
    ((requestPool id (fun _ => payment) World.empty).run noInterference
    turns).state.executions.length ≤ 1 := by
  intro h
  have ht : ((requestPool id (fun _ : Bool => payment) World.empty).run noInterference
      (retryTurns .lost)).state.executions.length = 2 := by decide +kernel
  have ho := h (retryTurns .lost)
  omega

end DukaPay.Backend.Idempotency
