import Mathlib.Algebra.Order.BigOperators.Group.List
import Mathlib.Tactic.Linarith

/-! A list of movements, each of an account and a signed amount. -/
namespace Contractlib.Ledger
open List
variable {K : Type*} [DecidableEq K]

def total (l : List (K × ℤ)) : ℤ := (l.map Prod.snd).sum

def account (k : K) (l : List (K × ℤ)) : ℤ := total (l.filter fun x => x.1 = k)

def untouched (l : List (K × ℤ)) : ℤ :=
  total (l.filter fun x => ∀ y ∈ l, y.1 = x.1 → 0 < y.2)

omit [DecidableEq K] in
@[simp] lemma total_nil : total ([] : List (K × ℤ)) = 0 := rfl

omit [DecidableEq K] in
@[simp] lemma total_cons (x : K × ℤ) (l : List (K × ℤ)) : total (x :: l) = x.2 + total l := sum_cons

@[simp] lemma account_nil (k : K) : account k [] = 0 := rfl

lemma account_cons (k : K) (x : K × ℤ) (l : List (K × ℤ)) :
    account k (x :: l) = (if x.1 = k then x.2 else 0) + account k l := by
  unfold account
  rw [filter_cons]
  by_cases h : x.1 = k
  · simp [h]
  · simp [h]

omit [DecidableEq K] in
lemma total_filter_add (p : K × ℤ → Bool) (l : List (K × ℤ)) :
    total (l.filter p) + total (l.filter fun x => !p x) = total l := by
  induction l with
  | nil => rfl
  | cons x l ih => cases h : p x <;> simp [h] <;> omega

def without (k : K) (l : List (K × ℤ)) : List (K × ℤ) := l.filter fun x => !decide (x.1 = k)

lemma account_without_self (k : K) (l : List (K × ℤ)) : account k (without k l) = 0 := by
  simp [account,without,filter_filter]

lemma account_without_ne {j k} (h : j ≠ k) (l : List (K × ℤ)) :
    account j (without k l) = account j l := by
  unfold account without
  rw [filter_filter]
  congr 1
  apply filter_congr
  intro x _
  by_cases hx : x.1 = j
  · simp [hx,h]
  · simp [hx]

lemma total_filter_eq (Q : K → Bool) (k : K) (l : List (K × ℤ)) : total (l.filter fun x => Q x.1) =
    (if Q k then account k l else 0) + total ((without k l).filter fun x => Q x.1) := by
  induction l with
  | nil => simp [without]
  | cons x l ih =>
    unfold without at ih ⊢
    by_cases hk : x.1 = k
    · cases hQ : Q k <;> simp [account_cons,hk,hQ,ih,add_assoc]
    · cases hQ : Q x.1 <;> simp [account_cons,hk,hQ,ih,add_left_comm]

variable {l : List (K × ℤ)}

lemma total_filter_nonneg (Q : K → Bool) (h : ∀ k, 0 ≤ account k l) :
    0 ≤ total (l.filter fun x => Q x.1) := by
  -- the movements on the account of the first one are taken out together
  induction hn : l.length using Nat.strong_induction_on generalizing l with
  | _ n ih =>
    cases l with
    | nil => exact le_refl 0
    | cons x l =>
      have hs : (without x.1 (x :: l)).length < n := by
        have hl : (without x.1 l).length ≤ l.length := length_filter_le _ _
        simp only [length_cons] at hn
        simp only [without,filter_cons,decide_true,Bool.not_true,Bool.false_eq_true,
          if_false] at hl ⊢
        omega
      have hr : 0 ≤ total ((without x.1 (x :: l)).filter fun y => Q y.1) := by
        refine ih _ hs (fun k => ?_) rfl
        by_cases hk : k = x.1
        · rw [hk,account_without_self]
        · rw [account_without_ne hk]
          exact h k
      rw [total_filter_eq Q x.1]
      have ho := h x.1
      split <;> omega

lemma account_le_total (h : ∀ k, 0 ≤ account k l) (k) : account k l ≤ total l := by
  have hs := total_filter_add (fun x : K × ℤ => decide (x.1 = k)) l
  have hr := total_filter_nonneg (fun j => !decide (j = k)) h
  unfold account
  omega

lemma untouched_le_total (h : ∀ k, 0 ≤ account k l) : untouched l ≤ total l := by
  have hs := total_filter_add (fun x => decide (∀ y ∈ l, y.1 = x.1 → 0 < y.2)) l
  have hr := total_filter_nonneg (fun j => !decide (∀ y ∈ l, y.1 = j → 0 < y.2)) h
  unfold untouched
  omega

end Contractlib.Ledger
