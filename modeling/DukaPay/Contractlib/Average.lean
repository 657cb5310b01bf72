import Mathlib.Tactic.Linarith

/-! A weighted sum together with the sum of its weights. -/
namespace Contractlib
open List

structure Weighted where
  sum : ℕ
  weight : ℕ

namespace Weighted

def zero : Weighted := ⟨0,0⟩

def add (acc : Weighted) (v w : ℕ) : Weighted := ⟨acc.sum + v * w,acc.weight + w⟩

def addAll (acc : Weighted) (vs : List (ℕ × ℕ)) : Weighted :=
  vs.foldl (fun acc v => acc.add v.1 v.2) acc

lemma weight_addAll (acc : Weighted) (vs) :
    (acc.addAll vs).weight = acc.weight + (vs.map Prod.snd).sum := by
  induction vs generalizing acc with
  | nil => rfl
  | cons v vs ih =>
    rw [map_cons,sum_cons,← add_assoc]
    exact ih _

def Between (a b : ℕ) (acc : Weighted) : Prop :=
  a * acc.weight ≤ acc.sum ∧ acc.sum ≤ b * acc.weight

variable {a b : ℕ} {acc : Weighted}

lemma between_zero (a b : ℕ) : zero.Between a b := ⟨le_refl 0,le_refl 0⟩

lemma Between.add (h : acc.Between a b) {v} (ha : a ≤ v) (hv : v ≤ b) (w : ℕ) :
    (acc.add v w).Between a b := by
  have hl := Nat.mul_le_mul_right w ha
  have hh := Nat.mul_le_mul_right w hv
  exact ⟨by simpa only [Weighted.add,mul_add] using Nat.add_le_add h.1 hl,
    by simpa only [Weighted.add,mul_add] using Nat.add_le_add h.2 hh⟩

lemma Between.addAll {vs} (h : acc.Between a b)
    (hs : ∀ v ∈ vs, a ≤ v.1 ∧ v.1 ≤ b) : (acc.addAll vs).Between a b := by
  induction vs generalizing acc with
  | nil => exact h
  | cons v vs ih =>
    obtain ⟨ha,hb⟩ := hs v mem_cons_self
    exact ih (h.add ha hb v.2) fun v' hv' => hs v' (mem_cons_of_mem _ hv')

lemma Between.div (h : acc.Between a b) (hw : 0 < acc.weight) :
    a ≤ acc.sum / acc.weight ∧ acc.sum / acc.weight ≤ b :=
  ⟨(Nat.le_div_iff_mul_le hw).mpr h.1,Nat.div_le_of_le_mul (by rw [mul_comm]; exact h.2)⟩

end Weighted

end Contractlib
