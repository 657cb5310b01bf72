import Mathlib.Data.List.Basic

/-! Machines that take a step for each action: what every step preserves while the actions meet a
condition holds after the whole run. -/
namespace Contractlib
universe u v
variable {σ : Type u} {α : Type v}

def Always (step : σ → α → σ) (P : σ → α → Prop) : σ → List α → Prop
  | _,[] => True
  | s,a :: as => P s a ∧ Always step P (step s a) as

instance decidableAlways {step : σ → α → σ} {P : σ → α → Prop} [∀ s a, Decidable (P s a)] :
    ∀ s as, Decidable (Always step P s as)
  | _,[] => isTrue trivial
  | s,a :: as => @instDecidableAnd _ _ _ (decidableAlways (step s a) as)

lemma always_of_forall {step : σ → α → σ} {P : σ → α → Prop} {s as} (h : ∀ s, ∀ a ∈ as, P s a) :
    Always step P s as := by
  induction as generalizing s with
  | nil => trivial
  | cons a as ih =>
    exact ⟨h s a List.mem_cons_self,ih fun s a ha => h s a (List.mem_cons_of_mem _ ha)⟩

lemma Always.foldl {step : σ → α → σ} {P : σ → α → Prop} {I : σ → Prop}
    (ht : ∀ s a, I s → P s a → I (step s a)) {s as} (hs : I s)
    (h : Always step P s as) : I (as.foldl step s) := by
  induction as generalizing s with
  | nil => exact hs
  | cons a as ih => exact ih (ht s a hs h.1) h.2

end Contractlib
