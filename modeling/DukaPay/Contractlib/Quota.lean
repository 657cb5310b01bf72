import DukaPay.Contractlib.Storage

/-! Quotas: every entry of a table belongs to an owner and has a state. -/
namespace Contractlib
open Storage

namespace Quota
variable {K O S : Type*} [DecidableEq K] [DecidableEq O] (holds : S → Bool)

def held (owner : O) : Option (O × S) → Nat
  | some (o,state) => if decide (o = owner) && holds state then 1 else 0
  | none => 0

def used (owner : O) (t : Storage K (O × S)) : Nat :=
  t.count fun entry => decide (entry.1 = owner) && holds entry.2

omit [DecidableEq K] in
lemma held_eq_part (owner : O) (k : K) (entry : Option (O × S)) : held holds owner entry =
    part (fun _ (e : O × S) => if decide (e.1 = owner) && holds e.2 then 1 else 0) k entry := by
  cases entry <;> rfl

lemma held_le_used (owner : O) (k : K) (t : Storage K (O × S)) :
    held holds owner (t.lookup k) ≤ used holds owner t := by
  rw [used,count_eq_sumBy,sumBy_erase _ k,held_eq_part holds owner k]
  exact Nat.le_add_right _ _

variable {holds} {k : K} {new : Option (O × S)} {t t' : Storage K (O × S)}

lemma used_of_writes (h : Storage.Writes k new t t') (owner : O) : used holds owner t' =
    used holds owner t + held holds owner new - held holds owner (t.lookup k) := by
  have hs := h.sumBy_eq fun _ (e : O × S) => if decide (e.1 = owner) && holds e.2 then 1 else 0
  rw [← held_eq_part,← held_eq_part,← count_eq_sumBy,← count_eq_sumBy] at hs
  unfold used
  omega

lemma used_congr (h : ∀ k, t'.lookup k = t.lookup k) (owner) :
    used holds owner t' = used holds owner t := by
  rw [used,used,count_eq_sumBy,count_eq_sumBy]
  exact sumBy_eq_of_lookup _ h

variable {owner : O} {state : S}

lemma held_pos (h : holds state = true) : held holds owner (some (owner,state)) = 1 := by
  rw [held,decide_eq_true rfl,h]
  rfl

lemma held_of_not {o} (h : holds state = false) : held holds owner (some (o,state)) = 0 := by
  rw [held,h,Bool.and_false]
  rfl

lemma held_congr {o state'} (h : holds state = holds state') :
    held holds owner (some (o,state)) = held holds owner (some (o,state')) := by
  rw [held,held,h]

lemma held_of_ne {o} (h : o ≠ owner) : held holds owner (some (o,state)) = 0 := by
  rw [held,decide_eq_false h]
  rfl

end Quota

end Contractlib
