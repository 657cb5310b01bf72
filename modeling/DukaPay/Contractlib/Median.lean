import Mathlib.Data.List.Sort
import Mathlib.Order.Interval.Set.Defs

/-! The upper median against outliers: an element of a sorted list is bounded as soon as few
elements of the list are beyond the bound. -/
namespace Contractlib
open List
variable {α : Type*} [LinearOrder α]

lemma getElem_le_of_countP_lt {l : List α} (hl : l.Pairwise (· ≤ ·)) {k} (hk : k < l.length)
    {b} (h : l.countP (fun x => decide (b < x)) < l.length - k) : l[k] ≤ b := by
  by_contra hlt
  rw [not_le] at hlt
  -- everything from `k` on is at least as large
  have ha : ∀ x ∈ l.drop k, decide (b < x) = true := by
    intro x hx
    rw [drop_eq_getElem_cons hk] at hx
    obtain rfl | hx := mem_cons.mp hx
    · exact decide_eq_true hlt
    have hd := hl.drop (i := k)
    rw [drop_eq_getElem_cons hk] at hd
    exact decide_eq_true (hlt.trans_le ((pairwise_cons.mp hd).1 x hx))
  have hc := (drop_sublist k l).countP_le (p := fun x => decide (b < x))
  rw [countP_eq_length.mpr ha,length_drop] at hc
  omega

lemma le_getElem_of_countP_le {l : List α} (hl : l.Pairwise (· ≤ ·)) {k} (hk : k < l.length)
    {b} (h : l.countP (fun x => decide (x < b)) ≤ k) : b ≤ l[k] := by
  by_contra hlt
  rw [not_le] at hlt
  have hb : ∀ x ∈ l.take (k + 1), decide (x < b) = true := by
    intro x hx
    obtain ⟨i,hi,rfl⟩ := mem_iff_getElem.mp hx
    rw [length_take] at hi
    rw [getElem_take]
    refine decide_eq_true (lt_of_le_of_lt ?_ hlt)
    obtain hik | rfl := (show i ≤ k by omega).lt_or_eq
    · exact pairwise_iff_getElem.mp hl i k (by omega) hk hik
    · exact le_refl _
  have hc := (take_sublist (k + 1) l).countP_le (p := fun x => decide (x < b))
  rw [countP_eq_length.mpr hb,length_take] at hc
  omega

/-- **Few outliers**: if fewer than half of the elements are outside of an interval, then the upper
median is in it. -/
lemma upperMedian_mem_Icc {l srt : List α} (hpm : srt.Perm l) (hs : srt.Pairwise (· ≤ ·))
    {a b} (h : 2 * l.countP (fun x => decide (¬ (a ≤ x ∧ x ≤ b))) < l.length)
    (hk : srt.length / 2 < srt.length) : srt[srt.length / 2] ∈ Set.Icc a b := by
  rw [← hpm.countP_eq,← hpm.length_eq] at h
  have hm : ∀ p, (∀ x, p x = true → ¬ (a ≤ x ∧ x ≤ b)) →
      srt.countP p ≤ srt.countP fun x => decide (¬ (a ≤ x ∧ x ≤ b)) :=
    fun p hp => countP_mono_left fun x _ hx => decide_eq_true (hp x hx)
  have hb := hm (fun x => decide (x < a)) fun x hx hn =>
    absurd hn.1 (not_le.mpr (of_decide_eq_true hx))
  have ha := hm (fun x => decide (b < x)) fun x hx hn =>
    absurd hn.2 (not_le.mpr (of_decide_eq_true hx))
  exact ⟨le_getElem_of_countP_le hs hk (by omega),getElem_le_of_countP_lt hs hk (by omega)⟩

end Contractlib
