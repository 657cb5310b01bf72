import DukaPay.Contractlib.Transaction

/-! What a state owes to the calls that led to it. -/
namespace Contractlib
open List

namespace Transactional
variable {State Call Fault : Type*} (S : Transactional State Call Fault)

/-- In the run of `cs` from `s`, the call `c` was made in the state `t` and returned `t'`; the calls
`rest` came after it. -/
def Returned (s : State) (cs : List Call) (t : State) (c : Call) (t' : State)
    (rest : List Call) : Prop :=
  ∃ past, cs = past ++ c :: rest ∧ S.run s past = t ∧ S.exec c t = .ok t'

def Throughout (J : State → Prop) : State → List Call → Prop
  | s,[] => J s
  | s,c :: cs => J s ∧ Throughout J (S.apply s c) cs

variable {S} {J : State → Prop} {s t t' : State} {c : Call} {cs rest : List Call}

lemma Returned.exec (h : S.Returned s cs t c t' rest) : S.exec c t = .ok t' := by
  obtain ⟨-,-,-,hx⟩ := h
  exact hx

lemma Returned.run_eq (h : S.Returned s cs t c t' rest) : S.run s cs = S.run t' rest := by
  obtain ⟨_,rfl,rfl,hx⟩ := h
  rw [run_append,← apply_of_ok hx]
  rfl

lemma Returned.invariant (h : S.Returned s cs t c t' rest) (hJ : ∀ cs, J (S.run s cs)) : J t := by
  obtain ⟨past,-,rfl,-⟩ := h
  exact hJ past

lemma returned_head (h : S.exec c s = .ok t) : S.Returned s (c :: cs) s c t cs := ⟨[],rfl,rfl,h⟩

lemma Returned.cons {c0} (h : S.Returned (S.apply s c0) cs t c t' rest) :
    S.Returned s (c0 :: cs) t c t' rest := by
  obtain ⟨past,rfl,hp,hx⟩ := h
  exact ⟨c0 :: past,rfl,hp,hx⟩

lemma Throughout.head (h : S.Throughout J s cs) : J s := by
  cases cs with
  | nil => exact h
  | cons => exact h.1

lemma Throughout.imp {K} (hJK : ∀ s, J s → K s) (h : S.Throughout J s cs) :
    S.Throughout K s cs := by
  induction cs generalizing s with
  | nil => exact hJK s h
  | cons c cs ih => exact ⟨hJK s h.1,ih h.2⟩

lemma Throughout.of_returned (h : S.Throughout J s cs) (hr : S.Returned s cs t c t' rest) :
    J t ∧ J t' := by
  obtain ⟨past,rfl,rfl,hx⟩ := hr
  induction past generalizing s with
  | nil =>
    obtain ⟨hs,he⟩ := h
    have ha : S.apply s c = t' := apply_of_ok hx
    exact ⟨hs,ha ▸ he.head⟩
  | cons c0 past ih => exact ih h.2 hx

lemma throughout_or_last_change (h : J (S.run s cs)) : S.Throughout J s cs ∨
    ∃ t c t' rest, S.Returned s cs t c t' rest ∧ ¬ J t ∧ S.Throughout J t' rest := by
  induction cs generalizing s with
  | nil => exact .inl h
  | cons c cs ih =>
    obtain hr | ⟨t,d,t',rest,hrt,ht,hh⟩ := ih h
    · by_cases hs : J s
      · exact .inl ⟨hs,hr⟩
      -- the state changed, so the call returned
      cases hx : S.exec c s with
      | ok s' =>
        rw [apply_of_ok hx] at hr
        exact .inr ⟨s,c,s',cs,returned_head hx,hs,hr⟩
      | error =>
        rw [apply_of_error hx] at hr
        exact absurd hr.head hs
    · exact .inr ⟨t,d,t',rest,hrt.cons,ht,hh⟩

/-- **Last change**: a property that holds in the end and not in the beginning was made true by a
call after which it has held throughout. -/
lemma exists_last_change (hs : ¬ J s) (h : J (S.run s cs)) :
    ∃ t c t' rest, S.Returned s cs t c t' rest ∧ ¬ J t ∧ S.Throughout J t' rest := by
  obtain ht | hchg := throughout_or_last_change h
  · exact absurd ht.head hs
  · exact hchg

/-- A property that holds where a call was made, and not in the beginning, was made true by an
earlier call. -/
lemma Returned.exists_earlier_change {u u' d last}
    (h : S.Returned s cs u d u' last) (hs : ¬ J s) (hu : J u) :
    ∃ t c t' rest, S.Returned s cs t c t' rest ∧ ¬ J t ∧ J t' ∧ S.Returned t' rest u d u' last := by
  obtain ⟨past,rfl,rfl,hx⟩ := h
  obtain ⟨t,c,t',rest,hc,ht,hh⟩ := exists_last_change hs hu
  have hr : S.run s past = S.run t' rest := hc.run_eq
  obtain ⟨bef,rfl,hb,hexec'⟩ := hc
  refine ⟨t,c,t',rest ++ d :: last,⟨bef,?_,hb,hexec'⟩,ht,hh.head,rest,rfl,hr.symm,hx⟩
  rw [append_assoc,cons_append]

def NoneReturned (S : Transactional State Call Fault) (P : Call → Prop) (s : State)
    (cs : List Call) : Prop :=
  ∀ t c t' rest, S.Returned s cs t c t' rest → ¬ P c

lemma Returned.of_cons {c0} (h : S.Returned s (c0 :: cs) t c t' rest) :
    (c0 = c ∧ cs = rest ∧ s = t ∧ S.exec c s = .ok t') ∨
    S.Returned (S.apply s c0) cs t c t' rest := by
  obtain ⟨past,hc,hp,hx⟩ := h
  cases past with
  | nil =>
    obtain ⟨rfl,rfl⟩ := List.cons.inj hc
    cases hp
    exact .inl ⟨rfl,rfl,rfl,hx⟩
  | cons d past =>
    obtain ⟨rfl,rfl⟩ := List.cons.inj hc
    exact .inr ⟨past,rfl,hp,hx⟩

lemma last_returned (S : Transactional State Call Fault) (P s cs) : S.NoneReturned P s cs ∨
    ∃ t c t' rest, S.Returned s cs t c t' rest ∧ P c ∧ S.NoneReturned P t' rest := by
  induction cs generalizing s with
  | nil =>
    refine .inl fun t c t' rest hret => ?_
    obtain ⟨past,hs,-⟩ := hret
    cases past <;> cases hs
  | cons c0 cs ih =>
    obtain hn | ⟨t,c,t',rest,hret,hc,hl⟩ := ih (S.apply s c0)
    · by_cases hf : P c0 ∧ ∃ s', S.exec c0 s = .ok s'
      · obtain ⟨hc0,s',hx⟩ := hf
        rw [apply_of_ok hx] at hn
        exact .inr ⟨s,c0,s',cs,returned_head hx,hc0,hn⟩
      · refine .inl fun t c t' rest hret hc => ?_
        obtain ⟨rfl,-,-,hx⟩ | hret := hret.of_cons
        · exact hf ⟨hc,t',hx⟩
        · exact hn t c t' rest hret hc
    · exact .inr ⟨t,c,t',rest,hret.cons,hc,hl⟩

lemma run_frame {α : Type*} {P : Call → Prop} {f : State → α}
    (hk : ∀ s c s', S.exec c s = .ok s' → ¬ P c → f s' = f s)
    (hn : S.NoneReturned P s cs) : f (S.run s cs) = f s := by
  induction cs generalizing s with
  | nil => rfl
  | cons c cs ih =>
    have hf : f (S.apply s c) = f s := apply_cases (I := fun s' => f s' = f s) rfl fun s' hx =>
        hk s c s' hx (hn s c s' cs (returned_head hx))
    exact (ih fun t d t' rest h => hn t d t' rest h.cons).trans hf

/-- **Runs with a clock**: if an invariant survives the passing of time, and every call that meets
`P` keeps it at its time, then it holds after every run whose calls all meet `P` and whose clock
does not go back. -/
lemma timed_induction {time : Call → Nat} {P : State → Call → Prop} {I : Nat → State → Prop}
    (hw : ∀ s now ltr, now ≤ ltr → I now s → I ltr s)
    (hst : ∀ s c s', I (time c) s → P s c → S.exec c s = .ok s' → I (time c) s')
    {s cs now} (hs : I 0 s) (hP : S.Along P s cs)
    (hm : (cs.map time ++ [now]).Pairwise (· ≤ ·)) : I now (S.run s cs) := by
  -- the invariant is carried with the time of the call that is made next
  suffices h : ∀ start, I start s → (∀ c ∈ cs, start ≤ time c) → start ≤ now →
      I now (S.run s cs) from h 0 hs (fun _ _ => Nat.zero_le _) (Nat.zero_le _)
  clear hs
  induction cs generalizing s with
  | nil =>
    intro start hs _ hl
    exact hw s start now hl hs
  | cons c cs ih =>
    intro start hs hcs _
    obtain ⟨hc,hr⟩ := hP
    rw [map_cons,cons_append,pairwise_cons] at hm
    obtain ⟨hf,ht⟩ := hm
    have ha : I (time c) s := hw s start (time c) (hcs c mem_cons_self) hs
    refine ih hr ht (time c) ?_ (fun d hd => hf (time d) ?_) (hf now ?_)
    · exact apply_cases ha fun s' hx => hst s c s' ha hc hx
    · exact mem_append_left _ (mem_map_of_mem hd)
    · exact mem_append_right _ mem_cons_self

/-- **Two runs with a clock**: a relation that survives the passing of time, and that every call
keeps at the time of the call, holds after two runs of the same calls. -/
lemma timed_simulation {time : Call → Nat} {R : Nat → State → State → Prop}
    (hw : ∀ s t now ltr, now ≤ ltr → R now s t → R ltr s t)
    (ht : ∀ s t c, R (time c) s t → R (time c) (S.apply s c) (S.apply t c)) {s t} {cs : List Call}
    {start now} (hs : R start s t) (hm : (start :: (cs.map time ++ [now])).Pairwise (· ≤ ·)) :
    R now (S.run s cs) (S.run t cs) := by
  induction cs generalizing s t start with
  | nil =>
    rw [map_nil,nil_append,pairwise_cons] at hm
    exact hw s t start now (hm.1 now mem_cons_self) hs
  | cons c cs ih =>
    rw [map_cons,cons_append,pairwise_cons] at hm
    obtain ⟨ha,hl⟩ := hm
    exact ih (ht s t c (hw s t start (time c) (ha (time c) mem_cons_self) hs)) hl

end Transactional

end Contractlib
