import Mathlib.Data.Rat.Floor

/-! The two ways of rounding to the nearest integer differ in what they do with a tie. -/
namespace Contractlib

def NearestAway (x : ℚ) (q : ℤ) : Prop :=
  |x - q| ≤ 1 / 2 ∧ (|x - q| = 1 / 2 → |x| < |(q : ℚ)|)

def NearestEven (x : ℚ) (q : ℤ) : Prop :=
  |x - q| ≤ 1 / 2 ∧ (|x - q| = 1 / 2 → Even q)

variable {x : ℚ} {q q' : ℤ}

lemma tie_of_nearest (h : |x - q| ≤ 1 / 2) (h' : |x - q'| ≤ 1 / 2) (ht : q < q') :
    q' = q + 1 ∧ x = q + 1 / 2 := by
  rw [abs_le] at h h'
  have hs : (q : ℚ) + 1 ≤ q' := by exact_mod_cast ht
  have hl : (q' : ℚ) ≤ q + 1 := by linarith
  have he : q' = q + 1 := le_antisymm (by exact_mod_cast hl) ht
  refine ⟨he,?_⟩
  linarith

/-- A relation that holds at nearest integers only is single-valued, if it never holds at both
neighbours of a half. -/
lemma unique_of_nearest {P : ℤ → Prop} (hn : ∀ q, P q → |x - q| ≤ 1 / 2)
    (ht : ∀ q : ℤ, x = q + 1 / 2 → P q → ¬ P (q + 1)) (h : P q) (h' : P q') : q = q' := by
  rcases lt_trichotomy q q' with hl | he | hg
  · obtain ⟨rfl,hx⟩ := tie_of_nearest (hn q h) (hn q' h') hl
    exact absurd h' (ht q hx h)
  · exact he
  · obtain ⟨rfl,hx⟩ := tie_of_nearest (hn q' h') (hn q h) hg
    exact absurd h (ht q' hx h')

lemma NearestAway.unique (h : NearestAway x q) (h' : NearestAway x q') : q = q' := by
  apply unique_of_nearest (fun _ hq => hq.1) _ h h'
  intro q hx hq hq'
  -- the number is between the two, so it is not nearer to zero than both
  have hl := hq.2 (by rw [hx]; norm_num)
  have hh := hq'.2 (by rw [hx]; push_cast; norm_num)
  rcases le_or_gt 0 q with hp | hn
  · have hq0 : (0 : ℚ) ≤ q := by exact_mod_cast hp
    rw [hx,abs_of_nonneg hq0,abs_of_nonneg (by linarith)] at hl
    linarith
  have hq1 : ((q + 1 : ℤ) : ℚ) ≤ 0 := by exact_mod_cast hn
  rw [hx,abs_of_nonpos hq1,abs_of_nonpos (by push_cast at hq1; linarith)] at hh
  push_cast at hh
  linarith

lemma NearestEven.unique (h : NearestEven x q) (h' : NearestEven x q') : q = q' := by
  apply unique_of_nearest (fun _ hq => hq.1) _ h h'
  intro q hx hq hq'
  have he := hq.2 (by rw [hx]; norm_num)
  have ho := hq'.2 (by rw [hx]; push_cast; norm_num)
  rw [Int.even_add_one] at ho
  exact ho he

lemma floor_intCast_div (n : ℤ) {d : ℤ} (hd : 0 < d) : ⌊(n : ℚ) / d⌋ = n / d := by
  lift d to ℕ using hd.le
  exact Rat.floor_intCast_div_natCast n d

lemma ceil_intCast_div {n d : ℤ} (hd : 0 < d) (hm : n % d ≠ 0) : ⌈(n : ℚ) / d⌉ = n / d + 1 := by
  have hq : (0 : ℚ) < d := by exact_mod_cast hd
  have hv := Int.mul_ediv_add_emod n d
  have hl := Int.emod_lt_of_pos n hd
  have hp := lt_of_le_of_ne (Int.emod_nonneg n hd.ne') hm.symm
  rw [Int.ceil_eq_iff,lt_div_iff₀ hq,div_le_iff₀ hq]
  constructor
  · exact_mod_cast (by linarith : (n / d + 1 - 1) * d < n)
  · exact_mod_cast (by linarith : n ≤ (n / d + 1) * d)

/-- The integers `t` and `r` are the quotient and the remainder of `n` by the positive `d`, divided
towards zero. -/
structure Truncated (n d t r : ℤ) : Prop where
  pos : 0 < d
  eq : n = d * t + r
  lower : -d < r
  upper : r < d
  down : r < 0 → t ≤ 0
  up : 0 < r → 0 ≤ t

lemma truncated_tdiv (n : ℤ) {d} (hd : 0 < d) : Truncated n d (n.tdiv d) (n.tmod d) where
  pos := hd
  eq := (Int.mul_tdiv_add_tmod n d).symm
  lower := Int.lt_tmod_of_pos n hd
  upper := Int.tmod_lt_of_pos n hd
  down hr := by
    have hn : n < 0 := by
      by_contra hp
      exact absurd (Int.tmod_nonneg d (not_lt.mp hp)) (not_le.mpr hr)
    have he := Int.mul_tdiv_add_tmod n d
    have hl := Int.lt_tmod_of_pos n hd
    by_contra hp
    nlinarith
  up hr := by
    have hn : 0 < n := by
      by_contra hg
      have hm := Int.tmod_nonneg d (Int.neg_nonneg.mpr (not_lt.mp hg))
      rw [Int.neg_tmod] at hm
      omega
    exact Int.tdiv_nonneg hn.le hd.le

namespace Truncated
variable {n d t r : ℤ} (h : Truncated n d t r)

include h

lemma cast_pos : (0 : ℚ) < d := by exact_mod_cast h.pos

lemma div_eq : (n : ℚ) / d = t + (r : ℚ) / d := by
  have hd := h.cast_pos
  rw [h.eq]
  push_cast
  field_simp

lemma floor_eq : ⌊(n : ℚ) / d⌋ = if r < 0 then t - 1 else t := by
  have hd := h.cast_pos
  have hl : (-1 : ℚ) < r / d := by
    rw [lt_div_iff₀ hd]
    have := h.lower
    exact_mod_cast (by linarith : -1 * d < r)
  have hh : (r : ℚ) / d < 1 := by
    rw [div_lt_one hd]
    exact_mod_cast h.upper
  rw [h.div_eq,Int.floor_eq_iff]
  split
  · next hn =>
    have hr : (r : ℚ) / d < 0 := div_neg_of_neg_of_pos (by exact_mod_cast hn) hd
    push_cast
    constructor <;> linarith
  · next hp =>
    have hr : (0 : ℚ) ≤ (r : ℚ) / d := div_nonneg (by exact_mod_cast not_lt.mp hp) hd.le
    constructor <;> linarith

lemma ceil_eq : ⌈(n : ℚ) / d⌉ = if 0 < r then t + 1 else t := by
  have hd := h.cast_pos
  have hl : (-1 : ℚ) < r / d := by
    rw [lt_div_iff₀ hd]
    have := h.lower
    exact_mod_cast (by linarith : -1 * d < r)
  have hh : (r : ℚ) / d < 1 := by
    rw [div_lt_one hd]
    exact_mod_cast h.upper
  rw [h.div_eq,Int.ceil_eq_iff]
  split
  · next hp =>
    have hr : (0 : ℚ) < (r : ℚ) / d := div_pos (by exact_mod_cast hp) hd
    push_cast
    constructor <;> linarith
  · next hn =>
    have hr : (r : ℚ) / d ≤ 0 :=
      div_nonpos_of_nonpos_of_nonneg (by exact_mod_cast not_lt.mp hn) hd.le
    constructor <;> linarith

lemma abs_sub_eq (e : ℤ) : |(n : ℚ) / d - ((t + e : ℤ) : ℚ)| = ((|r - d * e| : ℤ) : ℚ) / d := by
  have hd := h.cast_pos
  have hf : (n : ℚ) / d - ((t + e : ℤ) : ℚ) = ((r - d * e : ℤ) : ℚ) / d := by
    rw [h.div_eq]
    push_cast
    field_simp
    ring
  rw [hf,abs_div,abs_of_pos hd,Int.cast_abs]

lemma nearest_iff (e : ℤ) : |(n : ℚ) / d - ((t + e : ℤ) : ℚ)| ≤ 1 / 2 ↔ 2 * |r - d * e| ≤ d := by
  rw [h.abs_sub_eq,div_le_div_iff₀ h.cast_pos two_pos,one_mul,mul_comm]
  norm_cast

lemma tie_iff (e : ℤ) : |(n : ℚ) / d - ((t + e : ℤ) : ℚ)| = 1 / 2 ↔ 2 * |r - d * e| = d := by
  rw [h.abs_sub_eq,div_eq_div_iff h.cast_pos.ne' two_ne_zero,one_mul,mul_comm]
  norm_cast

lemma abs_lt_iff (q : ℤ) : |(n : ℚ) / d| < |(q : ℚ)| ↔ |n| < |q| * d := by
  rw [abs_div,abs_of_pos h.cast_pos,div_lt_iff₀ h.cast_pos]
  norm_cast

lemma nearest_away (hl : d ≤ 2 * |r|) :
    |(n : ℚ) / d - ((if r < 0 then t - 1 else t + 1 : ℤ) : ℚ)| ≤ 1 / 2 ∧
      (|(n : ℚ) / d - ((if r < 0 then t - 1 else t + 1 : ℤ) : ℚ)| = 1 / 2 ↔ 2 * |r| = d) := by
  have ho := h.lower
  have hh := h.upper
  split
  · next hn =>
    rw [abs_of_neg hn] at hl ⊢
    rw [show t - 1 = t + -1 from rfl,h.nearest_iff,h.tie_iff,abs_of_pos (by linarith)]
    constructor
    · linarith
    · constructor <;> intro ht <;> linarith
  · next hp =>
    rw [abs_of_nonneg (not_lt.mp hp)] at hl ⊢
    rw [h.nearest_iff,h.tie_iff,abs_of_neg (by linarith)]
    constructor
    · linarith
    · constructor <;> intro ht <;> linarith

lemma nearest_truncated (hh : 2 * |r| ≤ d) :
    |(n : ℚ) / d - (t : ℚ)| ≤ 1 / 2 ∧ (|(n : ℚ) / d - (t : ℚ)| = 1 / 2 ↔ 2 * |r| = d) := by
  have hn := h.nearest_iff 0
  have ht := h.tie_iff 0
  rw [add_zero,mul_zero,sub_zero] at hn ht
  exact ⟨hn.mpr hh,ht⟩

lemma nearestAway :
    NearestAway ((n : ℚ) / d) (if d ≤ 2 * |r| then if r < 0 then t - 1 else t + 1 else t) := by
  by_cases hl : d ≤ 2 * |r|
  · rw [if_pos hl]
    refine ⟨(h.nearest_away hl).1,fun _ => ?_⟩
    rw [h.abs_lt_iff,h.eq]
    have hd := h.pos
    have ho := h.lower
    have hh := h.upper
    split
    · next hg =>
      have ht := h.down hg
      rw [abs_of_neg (by nlinarith),abs_of_neg (by linarith)]
      linarith
    · next hp =>
      have hr : 0 < r := by
        rcases (not_lt.mp hp).eq_or_lt with hz | hr
        · rw [← hz,abs_zero] at hl
          linarith
        · exact hr
      have ht := h.up hr
      rw [abs_of_nonneg (by nlinarith),abs_of_pos (by linarith)]
      linarith
  · rw [if_neg hl]
    obtain ⟨hn,hti⟩ := h.nearest_truncated (not_le.mp hl).le
    exact ⟨hn,fun he => absurd (hti.mp he).ge hl⟩

lemma nearestEven : NearestEven ((n : ℚ) / d)
    (if d < 2 * |r| ∨ 2 * |r| = d ∧ ¬ Even t then if r < 0 then t - 1 else t + 1 else t) := by
  by_cases hm : d < 2 * |r| ∨ 2 * |r| = d ∧ ¬ Even t
  · rw [if_pos hm]
    have hh : d ≤ 2 * |r| := hm.elim le_of_lt fun ht => ht.1.ge
    obtain ⟨hn,ht⟩ := h.nearest_away hh
    refine ⟨hn,fun he => ?_⟩
    have ho : ¬ Even t := hm.elim (fun hl => absurd (ht.mp he) hl.ne') And.right
    split
    · exact Int.even_sub_one.mpr ho
    · exact Int.even_add_one.mpr ho
  · rw [if_neg hm]
    have hh : 2 * |r| ≤ d := not_lt.mp fun hl => hm (.inl hl)
    obtain ⟨hn,ht⟩ := h.nearest_truncated hh
    refine ⟨hn,fun he => ?_⟩
    by_contra ho
    exact hm (.inr ⟨ht.mp he,ho⟩)

end Truncated

end Contractlib
