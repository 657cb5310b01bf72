import Mathlib.Algebra.Order.BigOperators.Group.Finset
import DukaPay.Contractlib.Ranking
import DukaPay.Contractlib.Rounding

/-! A total is split in proportion to weights, in whole units. -/
namespace Contractlib
open List Option
variable (parts : List Int)

def raise (winners : List Nat) : List Int :=
  winners.foldl (fun parts i => parts.modify i (· + 1)) parts

@[simp] lemma length_raise (wins) : (raise parts wins).length = parts.length := by
  induction wins generalizing parts with
  | nil => rfl
  | cons i wins ih => exact (ih _).trans (length_modify _ _ _)

lemma sum_modify_succ {parts : List Int} {i} (h : i < parts.length) :
    (parts.modify i (· + 1)).sum = parts.sum + 1 := by
  induction parts generalizing i with
  | nil => cases h
  | cons p parts ih =>
    cases i with
    | zero =>
      simp only [modify_zero_cons,sum_cons]
      omega
    | succ =>
      simp only [modify_succ_cons,sum_cons,ih (Nat.lt_of_succ_lt_succ h)]
      omega

lemma sum_raise {parts : List Int} {wins} (h : ∀ i ∈ wins, i < parts.length) :
    (raise parts wins).sum = parts.sum + wins.length := by
  induction wins generalizing parts with
  | nil => simp [raise]
  | cons i wins ih =>
    have hi : i < parts.length := h i (mem_cons_self ..)
    have hl : ∀ j ∈ wins, j < (parts.modify i (· + 1)).length := by
      intro j hj
      rw [length_modify]
      exact h j (mem_cons_of_mem i hj)
    have hr := ih hl
    rw [sum_modify_succ hi] at hr
    rw [length_cons]
    push_cast
    exact hr.trans (by ring)

lemma getElem?_raise (wins j) :
    (raise parts wins)[j]? = parts[j]?.map (· + (wins.count j : Int)) := by
  induction wins generalizing parts with
  | nil => simp [raise]
  | cons i wins ih =>
    refine (ih _).trans ?_
    rw [List.getElem?_modify,Option.map_eq_map,Option.map_map,List.count_cons]
    congr 1
    funext p
    by_cases hj : i = j
    · simp [hj]
      ring
    · simp [hj]

namespace Apportion
variable {total : Int} {ws : List Int}

def floors (total : Int) (weights : List Int) : List Int :=
  weights.map fun w => total * w / weights.sum

def leftover (total : Int) (weights : List Int) : Int := total - (floors total weights).sum

def remainder (total : Int) (weights : List Int) (i : Nat) : Int :=
  total * weights.getD i 0 % weights.sum

/-- The weights that one more unit goes to. -/
abbrev winners (total : Int) (weights : List Int) : List Nat :=
  ranking (remainder total weights) weights.length (leftover total weights).toNat

end Apportion

open Apportion

def apportion (total : Int) (weights : List Int) : List Int :=
  raise (floors total weights) (winners total weights)

variable {total : Int} {ws : List Int}

lemma sum_map_eq_sum_range (f : Int → Int) (l : List Int) :
    (l.map f).sum = ∑ i ∈ Finset.range l.length, f (l.getD i 0) := by
  induction l with
  | nil => rfl
  | cons a l ih =>
    rw [map_cons,sum_cons,ih,length_cons,Finset.sum_range_succ',add_comm]
    rfl

lemma sum_floors_add_remainders (total W) (ws : List Int) :
    W * (ws.map fun w => total * w / W).sum + (ws.map fun w => total * w % W).sum =
    total * ws.sum := by
  induction ws with
  | nil => simp
  | cons w ws ih =>
    have hd := Int.mul_ediv_add_emod (total * w) W
    simp only [map_cons,sum_cons,mul_add]
    linarith

lemma remainder_nonneg (total) (hW : 0 < ws.sum) (i) : 0 ≤ remainder total ws i :=
  Int.emod_nonneg _ hW.ne'

lemma remainder_lt (total) (hW : 0 < ws.sum) (i) : remainder total ws i < ws.sum :=
  Int.emod_lt_of_pos _ hW

lemma leftover_mul (total ws) : leftover total ws * ws.sum =
    ∑ i ∈ Finset.range ws.length, remainder total ws i := by
  have hs := sum_floors_add_remainders total ws.sum ws
  have hr := sum_map_eq_sum_range (fun w => total * w % ws.sum) ws
  rw [hr] at hs
  have hm : leftover total ws * ws.sum = total * ws.sum - ws.sum * (floors total ws).sum := by
    rw [leftover]
    ring
  rw [hm,← hs,floors]
  exact add_sub_cancel_left _ _

lemma leftover_nonneg (total) (hW : 0 < ws.sum) : 0 ≤ leftover total ws := by
  have hs : 0 ≤ leftover total ws * ws.sum := by
    rw [leftover_mul]
    exact Finset.sum_nonneg fun i _ => remainder_nonneg total hW i
  exact nonneg_of_mul_nonneg_left hs hW

def losers (total : Int) (weights : List Int) : Finset Nat :=
  (Finset.range weights.length).filter fun i => remainder total weights i ≠ 0

lemma leftover_lt_losers (hW : 0 < ws.sum) (hp : 0 < leftover total ws) :
    leftover total ws < (losers total ws).card := by
  have hb : leftover total ws * ws.sum ≤ (losers total ws).card * (ws.sum - 1) := by
    calc leftover total ws * ws.sum
        = ∑ i ∈ losers total ws, remainder total ws i := by
          rw [leftover_mul,losers,Finset.sum_filter_ne_zero]
      _ ≤ ∑ _i ∈ losers total ws, (ws.sum - 1) :=
          Finset.sum_le_sum fun i _ => Int.le_sub_one_of_lt (remainder_lt total hW i)
      _ = (losers total ws).card * (ws.sum - 1) := by
          rw [Finset.sum_const,nsmul_eq_mul]
  by_contra hle
  nlinarith

lemma leftover_lt_length (total) (hW : 0 < ws.sum) : leftover total ws < ws.length := by
  rcases (leftover_nonneg total hW).eq_or_lt with hz | hp
  · rw [← hz]
    rcases ws with _ | ⟨w,ws⟩
    · simp at hW
    · simp
  · have hc : (losers total ws).card ≤ ws.length :=
      (Finset.card_filter_le _ _).trans (Finset.card_range _).le
    have hl := leftover_lt_losers hW hp
    omega

lemma toNat_leftover_le (total) (hW : 0 < ws.sum) : (leftover total ws).toNat ≤ ws.length := by
  have hl := leftover_lt_length total hW
  have hn := leftover_nonneg total hW
  omega

variable {i : Nat} {p w : Int}

lemma remainder_ne_zero_of_mem_ranking (hW : 0 < ws.sum) (hi : i ∈ winners total ws) :
    remainder total ws i ≠ 0 := by
  have hl := toNat_leftover_le total hW
  intro hz
  -- all who lose something outrank `i`, so they all won, and `i` besides
  have hs : losers total ws ⊆ (winners total ws).toFinset.erase i := by
    intro j hj
    obtain ⟨hn,hjn⟩ := Finset.mem_filter.mp hj
    rw [Finset.mem_erase,List.mem_toFinset]
    refine ⟨fun hij => hjn (hij ▸ hz),?_⟩
    by_contra ho
    have hnn := remainder_nonneg total hW j
    rcases ranking_outranks hl hi (Finset.mem_range.mp hn) ho with ht | ⟨he,-⟩
    · omega
    · exact hjn (he.trans hz)
  have hc := Finset.card_le_card hs
  rw [Finset.card_erase_of_mem (List.mem_toFinset.mpr hi),
    List.toFinset_card_of_nodup (nodup_ranking hl),length_ranking hl] at hc
  have hp : 0 < (leftover total ws).toNat := by
    have hln := List.length_pos_of_mem hi
    rwa [length_ranking hl] at hln
  have ht := leftover_lt_losers hW (by omega : 0 < leftover total ws)
  omega

lemma sum_apportion (hW : 0 < ws.sum) : (apportion total ws).sum = total := by
  have hl := toNat_leftover_le total hW
  have hn := leftover_nonneg total hW
  rw [apportion,sum_raise,length_ranking hl]
  · rw [Int.toNat_of_nonneg hn,leftover]
    ring
  · intro i hi
    rw [floors,length_map]
    exact lt_of_mem_ranking hl hi

@[simp] lemma length_apportion (total ws) : (apportion total ws).length = ws.length := by
  rw [apportion,length_raise,floors,length_map]

lemma eq_of_getElem?_apportion (hW : 0 < ws.sum)
    (hp : (apportion total ws)[i]? = some p) (hw : ws[i]? = some w) :
    p = total * w / ws.sum + if i ∈ winners total ws then 1 else 0 := by
  have hn : (winners total ws).Nodup := nodup_ranking (toNat_leftover_le total hW)
  rw [apportion,getElem?_raise,floors,getElem?_map,hw,hn.count] at hp
  simp only [map_some,Option.some.injEq] at hp
  rw [← hp]
  split <;> rfl

lemma remainder_eq (hw : ws[i]? = some w) : remainder total ws i = total * w % ws.sum := by
  rw [remainder,getD_eq_getElem?_getD,hw,getD_some]

lemma floor_or_ceil_of_apportion (hW : 0 < ws.sum)
    (hp : (apportion total ws)[i]? = some p) (hw : ws[i]? = some w) :
    p = ⌊((total * w : Int) : ℚ) / ws.sum⌋ ∨ p = ⌈((total * w : Int) : ℚ) / ws.sum⌉ := by
  rw [eq_of_getElem?_apportion hW hp hw]
  split
  · next hn =>
    have hm := remainder_ne_zero_of_mem_ranking hW hn
    rw [remainder_eq hw] at hm
    exact .inr (ceil_intCast_div hW hm).symm
  · rw [add_zero,floor_intCast_div _ hW]
    exact .inl rfl

lemma apportion_of_zero (hW : 0 < ws.sum) (hp : (apportion total ws)[i]? = some p)
    (hw : ws[i]? = some 0) : p = 0 := by
  rw [eq_of_getElem?_apportion hW hp hw,mul_zero,Int.zero_ediv,zero_add,if_neg]
  intro hn
  apply remainder_ne_zero_of_mem_ranking hW hn
  rw [remainder_eq hw,mul_zero,Int.zero_emod]

lemma apportion_antitone (hW : 0 < ws.sum) {j q} (hij : i < j) (hi : ws[i]? = some w)
    (hj : ws[j]? = some w) (hp : (apportion total ws)[i]? = some p)
    (hq : (apportion total ws)[j]? = some q) : q ≤ p := by
  rw [eq_of_getElem?_apportion hW hp hi,eq_of_getElem?_apportion hW hq hj]
  have hl := toNat_leftover_le total hW
  have hn : i < ws.length := (List.getElem?_eq_some_iff.mp hi).1
  by_cases hw : j ∈ winners total ws
  · have hf : i ∈ winners total ws := by
      by_contra ho
      rcases ranking_outranks hl hw hn ho with ht | ⟨-,ht⟩
      · rw [remainder_eq hi,remainder_eq hj] at ht
        exact lt_irrefl _ ht
      · omega
    rw [if_pos hw,if_pos hf]
  · rw [if_neg hw]
    split <;> omega

end Contractlib
