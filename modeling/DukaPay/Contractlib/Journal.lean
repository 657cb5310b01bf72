import Mathlib.Data.List.Chain

/-! A journal lists the changes of a value, each entry with the value before and after it. -/
namespace Contractlib
open List
variable {E V : Type*}

def latest (n : Nat) (l : List E) : List E := l.drop (l.length - n)

lemma length_latest (n : Nat) (l : List E) : (latest n l).length = min n l.length := by
  rw [latest,length_drop]
  omega

lemma latest_of_length_le {n} {l : List E} (h : l.length ≤ n) : latest n l = l := by
  rw [latest,Nat.sub_eq_zero_of_le h,drop_zero]

lemma latest_latest {m n} (h : m ≤ n) (l : List E) : latest m (latest n l) = latest m l := by
  unfold latest
  rw [length_drop,drop_drop]
  congr 1
  omega

structure Recorded (before after : E → V) (v : V) (l : List E) : Prop where
  chain : l.IsChain fun e e' => before e' = after e
  last : ∀ e ∈ l.getLast?, after e = v

namespace Recorded
variable {before after : E → V} {v : V} {l : List E}

lemma nil (before after : E → V) (v) : Recorded before after v [] :=
  ⟨isChain_nil,fun _ h => nomatch h⟩

lemma latest (n) (h : Recorded before after v l) :
    Recorded before after v (Contractlib.latest n l) := by
  refine ⟨h.chain.drop _,fun e he => h.last e ?_⟩
  -- the window is empty or ends where the list does
  rw [Contractlib.latest,getLast?_drop] at he
  split at he
  · cases he
  · exact he

lemma push (h : Recorded before after v l) {e} (he : before e = v) :
    Recorded before after (after e) (l ++ [e]) := by
  refine ⟨?_,fun e' he' => ?_⟩
  · rw [isChain_append]
    refine ⟨h.chain,isChain_singleton e,fun x hx y hy => ?_⟩
    cases hy
    rw [he,h.last x hx]
  · rw [getLast?_concat] at he'
    cases he'
    rfl

end Recorded

end Contractlib
