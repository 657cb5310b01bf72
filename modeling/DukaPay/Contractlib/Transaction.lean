import DukaPay.Contractlib.Machine
import Mathlib.Algebra.Group.Hom.Defs
import Mathlib.Algebra.Order.Monoid.Defs
import Mathlib.Tactic.Common

/-! A transactional system executes calls one after the other. -/
namespace Contractlib
open List

structure Transactional (State Call Fault : Type*) where
  exec : Call → State → Except Fault State

namespace Transactional
variable {State Call Fault : Type*} (S : Transactional State Call Fault)

def apply (s : State) (c : Call) : State :=
  match S.exec c s with
  | .ok s' => s'
  | .error _ => s

def run (s : State) (cs : List Call) : State := cs.foldl S.apply s

def Along (P : State → Call → Prop) : State → List Call → Prop := Always S.apply P

instance {P : State → Call → Prop} [∀ s c, Decidable (P s c)] (s cs) : Decidable (S.Along P s cs) :=
  decidableAlways s cs

/-- The sum of `f s c` over the calls of the run that return, each in the state `s` it is made in. -/
def tally {M : Type*} [AddMonoid M] (f : State → Call → M) : State → List Call → M
  | _,[] => 0
  | s,c :: cs => (match S.exec c s with | .ok _ => f s c | .error _ => 0) + tally f (S.apply s c) cs

variable {S} {s : State} {I : State → Prop}

lemma apply_of_ok {s' c} (h : S.exec c s = .ok s') : S.apply s c = s' := by
  simp [apply,h]

lemma apply_of_error {c e} (h : S.exec c s = .error e) : S.apply s c = s := by
  simp [apply,h]

lemma run_append (s cs cs') : S.run s (cs ++ cs') = S.run (S.run s cs) cs' := foldl_append

lemma apply_cases {c} (hs : I s) (hc : ∀ s', S.exec c s = .ok s' → I s') : I (S.apply s c) := by
  unfold apply
  split
  · next s' h => exact hc s' h
  · exact hs

/-- **Guarded runs**: if every returning call that meets `P` keeps `I`, then `I` holds after every
run whose calls all meet `P`. -/
lemma along_induction {P} (ht : ∀ s c s', I s → P s c → S.exec c s = .ok s' → I s') {cs} (hs : I s)
    (hP : S.Along P s cs) : I (S.run s cs) :=
  Always.foldl (fun s c hs hc => apply_cases hs fun s' h => ht s c s' hs hc h) hs hP

lemma run_induction (ht : ∀ s c s', I s → S.exec c s = .ok s' → I s') (hs : I s)
    (cs) : I (S.run s cs) :=
  along_induction (fun s c s' hs _ => ht s c s' hs) hs
    (always_of_forall fun _ _ _ => trivial : S.Along (fun _ _ => True) s cs)

variable {M : Type*} {P : State → Call → Prop} {I : State → Prop} {f : State → Call → M}
  {v : State → M}

/-- **Tally rule**: if a returning call uses up `f` of a measure, then the run uses up the tally of
`f`. -/
lemma tally_add_le [AddCommMonoid M] [PartialOrder M] [IsOrderedAddMonoid M]
    (ht : ∀ s c s', I s → P s c → S.exec c s = .ok s' → I s' ∧ f s c + v s' ≤ v s) {s cs} (hs : I s)
    (hP : S.Along P s cs) : S.tally f s cs + v (S.run s cs) ≤ v s := by
  induction cs generalizing s with
  | nil => exact (zero_add (v s)).le
  | cons c cs ih =>
    obtain ⟨hc,hcs⟩ := hP
    cases hx : S.exec c s with
    | ok s' =>
      obtain ⟨_,_⟩ := ht s c s' hs hc hx
      have hr := ih (s := S.apply s c) (by rwa [apply_of_ok hx]) hcs
      simp only [tally,hx]
      calc f s c + S.tally f (S.apply s c) cs + v (S.run s (c :: cs))
          = f s c + (S.tally f (S.apply s c) cs + v (S.run (S.apply s c) cs)) := add_assoc _ _ _
        _ ≤ f s c + v (S.apply s c) := by gcongr
        _ ≤ v s := by rwa [apply_of_ok hx]
    | error =>
      have he := apply_of_error hx
      have hr := ih (s := S.apply s c) (by rwa [he]) hcs
      simp only [tally,hx,zero_add]
      rw [he] at hr ⊢
      simpa only [run,foldl_cons,he] using hr

/-- **Tally rule for equalities**: if a returning call adds `f` to a measure, then the run adds the
tally of `f`. -/
lemma run_eq_add_tally [AddMonoid M]
    (ht : ∀ s c s', I s → P s c → S.exec c s = .ok s' → I s' ∧ v s' = v s + f s c) {s cs} (hs : I s)
    (hP : S.Along P s cs) : v (S.run s cs) = v s + S.tally f s cs := by
  induction cs generalizing s with
  | nil => exact (add_zero (v s)).symm
  | cons c cs ih =>
    obtain ⟨hc,hcs⟩ := hP
    cases hx : S.exec c s with
    | ok s' =>
      obtain ⟨_,hq⟩ := ht s c s' hs hc hx
      have hr := ih (s := S.apply s c) (by rwa [apply_of_ok hx]) hcs
      simp only [tally,hx]
      rw [← add_assoc,← hq,← apply_of_ok hx]
      exact hr
    | error =>
      have he := apply_of_error hx
      have hr := ih (s := S.apply s c) (by rwa [he]) hcs
      simp only [tally,hx,zero_add]
      rw [he] at hr ⊢
      simpa only [run,foldl_cons,he] using hr

lemma map_tally {N : Type*} [AddMonoid M] [AddMonoid N] (g : M →+ N) (f : State → Call → M)
    (s cs) : g (S.tally f s cs) = S.tally (fun s c => g (f s c)) s cs := by
  induction cs generalizing s with
  | nil => exact map_zero g
  | cons c cs ih =>
    simp only [tally,map_add,ih]
    cases S.exec c s with
    | ok => rfl
    | error => simp

lemma tally_sub [AddCommGroup M] (f g : State → Call → M) (s cs) :
    S.tally (fun s c => f s c - g s c) s cs = S.tally f s cs - S.tally g s cs := by
  induction cs generalizing s with
  | nil => exact (sub_zero (0 : M)).symm
  | cons c cs ih =>
    simp only [tally,ih]
    cases S.exec c s with
    | ok => exact (add_sub_add_comm (f s c) _ (g s c) _).symm
    | error => simp

end Transactional

end Contractlib
