import Mathlib.Data.List.Basic

/-! A text that is joined from parts can be taken apart at a separator when the parts before it, or
the parts after it, do not contain the separator. -/
namespace Contractlib
open List
variable {α : Type} {a : α}

lemma append_cons_inj_first {l l' m m'} (h : a ∉ l) (h' : a ∉ l') :
    l ++ a :: m = l' ++ a :: m' ↔ l = l' ∧ m = m' := by
  induction l generalizing l' with
  | nil =>
    cases l' with
    | nil => simp
    | cons b =>
      have ha : a ≠ b := fun ha => h' (ha ▸ mem_cons_self)
      simp [ha]
  | cons b l ih =>
    obtain ⟨ha,hl⟩ : a ≠ b ∧ a ∉ l := by simpa using h
    cases l' with
    | nil => simp [ha.symm]
    | cons c l' =>
      have hl' : a ∉ l' := fun hm => h' (mem_cons_of_mem c hm)
      simp [ih hl hl',and_assoc]

lemma append_cons_inj_last {l l' m m'} (h : a ∉ m) (h' : a ∉ m') :
    l ++ a :: m = l' ++ a :: m' ↔ l = l' ∧ m = m' := by
  have hm : a ∉ m.reverse := fun hmm => h (mem_reverse.mp hmm)
  have hm' : a ∉ m'.reverse := fun hmm => h' (mem_reverse.mp hmm)
  have hf : m.reverse ++ a :: l.reverse = m'.reverse ++ a :: l'.reverse ↔ _ :=
    append_cons_inj_first hm hm'
  rw [← reverse_inj]
  simpa [and_comm] using hf

end Contractlib
