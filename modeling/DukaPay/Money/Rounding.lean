import DukaPay.Money
import DukaPay.Contractlib.Rounding

/-! The contracts, the backend and the frontend each have their own division of a stroop amount. -/
namespace DukaPay
open Contractlib IntType
open Money (RoundingMode)

structure MoneyError where
  message : String
  deriving DecidableEq

namespace Decimal

/-- The `switch` of the backend's division: whether the quotient is moved away from zero. -/
def roundAwayFromZero (quotient remainder absRemainder d : Int) : RoundingMode → Bool
  | .Floor => decide (remainder < 0)
  | .Ceil => !decide (remainder < 0)
  | .HalfUp => decide (absRemainder * 2 ≥ d)
  | .HalfEven =>
    let doubled := absRemainder * 2
    if doubled > d then true
    else if doubled < d then false
    -- an exact tie goes to the even quotient
    else decide (quotient.tmod 2 ≠ 0)

/-- The backend's division of `num` by `den`. A `bigint` has no range, so nothing is checked. -/
def roundDiv (num den : Int) (mode : RoundingMode) : Except MoneyError Int := do
  ensure (den ≠ 0) ⟨"division by zero"⟩
  let n := if den < 0 then -num else num
  let d := if den < 0 then -den else den
  let quotient := n.tdiv d
  let remainder := n.tmod d
  if remainder = 0 then
    pure quotient
  else
    let absRemainder := if remainder < 0 then -remainder else remainder
    if roundAwayFromZero quotient remainder absRemainder d mode then
      pure (if remainder < 0 then quotient - 1 else quotient + 1)
    else
      pure quotient

end Decimal

namespace Format

def roundDiv (num den : Int) (mode : RoundingMode) : Except MoneyError Int := do
  ensure (den ≠ 0) ⟨"division by zero"⟩
  let n := if den < 0 then -num else num
  let d := if den < 0 then -den else den
  let quotient := n.tdiv d
  let remainder := n.tmod d
  if remainder = 0 then
    pure quotient
  else
    let absRemainder := if remainder < 0 then -remainder else remainder
    let roundAwayFromZero : Bool := match mode with
      | .Floor => decide (remainder < 0)
      | .Ceil => !decide (remainder < 0)
      | .HalfUp => decide (absRemainder * 2 ≥ d)
      | .HalfEven =>
        let doubled := absRemainder * 2
        if doubled > d then true
        else if doubled < d then false
        else decide (quotient.tmod 2 ≠ 0)
    if roundAwayFromZero then
      pure (if remainder < 0 then quotient - 1 else quotient + 1)
    else
      pure quotient

lemma roundDiv_eq_decimal (num den mode) :
    roundDiv num den mode = Decimal.roundDiv num den mode := by
  cases mode <;> rfl

end Format

def IsRounding : RoundingMode → ℚ → Int → Prop
  | .Floor,x,q => q = ⌊x⌋
  | .Ceil,x,q => q = ⌈x⌉
  | .HalfUp,x,q => NearestAway x q
  | .HalfEven,x,q => NearestEven x q

lemma IsRounding.unique {mode x q q'} (h : IsRounding mode x q)
    (h' : IsRounding mode x q') : q = q' := by
  cases mode with
  | Floor => exact h.trans h'.symm
  | Ceil => exact h.trans h'.symm
  | HalfUp => exact NearestAway.unique h h'
  | HalfEven => exact NearestEven.unique h h'

def rounded (quotient remainder d : Int) (mode : RoundingMode) : Int :=
  if remainder ≠ 0 ∧ Decimal.roundAwayFromZero quotient remainder |remainder| d mode = true then
    if remainder < 0 then quotient - 1 else quotient + 1
  else quotient

/-- **Rounding is right**: from the truncated quotient and its remainder, each mode finds the
integer that it means. -/
lemma isRounding_rounded {n d t r} (h : Truncated n d t r) (mode) :
    IsRounding mode ((n : ℚ) / d) (rounded t r d mode) := by
  -- a remainder of half the divisor is not zero
  have hn : d ≤ 2 * |r| → r ≠ 0 := by
    rintro hl rfl
    rw [abs_zero] at hl
    exact absurd h.pos (by omega)
  cases mode with
  | Floor =>
    simp only [IsRounding,rounded,Decimal.roundAwayFromZero,decide_eq_true_eq,h.floor_eq]
    split <;> split <;> omega
  | Ceil =>
    simp only [IsRounding,rounded,Decimal.roundAwayFromZero,Bool.not_eq_true',
      decide_eq_false_iff_not,h.ceil_eq]
    split <;> split <;> omega
  | HalfUp =>
    have hc : (r ≠ 0 ∧ Decimal.roundAwayFromZero t r |r| d .HalfUp = true) ↔ d ≤ 2 * |r| := by
      simp only [Decimal.roundAwayFromZero,decide_eq_true_eq,ge_iff_le,mul_comm |r| 2]
      exact and_iff_right_of_imp hn
    simp only [IsRounding,rounded,hc]
    exact h.nearestAway
  | HalfEven =>
    have he : t.tmod 2 ≠ 0 ↔ ¬ Even t := by
      rw [not_iff_not,even_iff_two_dvd,Int.dvd_iff_tmod_eq_zero]
    have hc : (r ≠ 0 ∧ Decimal.roundAwayFromZero t r |r| d .HalfEven = true) ↔
        d < 2 * |r| ∨ 2 * |r| = d ∧ ¬ Even t := by
      simp only [Decimal.roundAwayFromZero,mul_comm |r| 2,gt_iff_lt]
      rcases lt_trichotomy (2 * |r|) d with hlt | ht | hg
      · simp [hlt,hlt.ne,hlt.not_gt]
      · simp only [ht,lt_irrefl,if_false,decide_eq_true_eq,he,false_or,true_and]
        exact and_iff_right (hn ht.ge)
      · simp [hg,hn hg.le]
    simp only [IsRounding,rounded,hc]
    exact h.nearestEven

/-- **The backend's division is right**: for a divisor other than zero it returns the exact
quotient, rounded in the given mode. -/
lemma Decimal.roundDiv_spec (num) {den} (he : den ≠ 0) (mode) :
    ∃ q, Decimal.roundDiv num den mode = .ok q ∧ IsRounding mode ((num : ℚ) / den) q := by
  -- the signs are folded into the dividend
  obtain ⟨n,d,hn,hd,hp,hq⟩ : ∃ n d, (if den < 0 then -num else num) = n ∧
      (if den < 0 then -den else den) = d ∧ 0 < d ∧ (num : ℚ) / den = (n : ℚ) / d := by
    by_cases hg : den < 0
    · refine ⟨-num,-den,if_pos hg,if_pos hg,by omega,?_⟩
      push_cast
      rw [neg_div_neg_eq]
    · exact ⟨num,den,if_neg hg,if_neg hg,by omega,rfl⟩
  refine ⟨rounded (n.tdiv d) (n.tmod d) d mode,?_,?_⟩
  · have ha : (if n.tmod d < 0 then -n.tmod d else n.tmod d) = |n.tmod d| := by
      split
      · next hg => rw [abs_of_neg hg]
      · next hp => rw [abs_of_nonneg (not_lt.mp hp)]
    simp only [Decimal.roundDiv,hn,hd,ha,bind_eq_ok,ensure_eq_ok,Unique.exists_iff,rounded]
    refine ⟨he,?_⟩
    by_cases hz : n.tmod d = 0
    · rw [if_pos hz,if_neg fun h => h.1 hz]
      rfl
    rw [if_neg hz]
    by_cases hw : roundAwayFromZero (n.tdiv d) (n.tmod d) |n.tmod d| d mode = true
    · rw [if_pos hw,if_pos (And.intro hz hw)]
      rfl
    · rw [if_neg hw,if_neg fun h => hw h.2]
      rfl
  · rw [hq]
    exact isRounding_rounded (truncated_tdiv n hp) mode

namespace Money
variable {den num : Int} {mode : RoundingMode}

lemma normalize_eq_ok {n d} (h : normalize num den = .ok (n,d)) :
    n = (if den < 0 then -num else num) ∧ d = if den < 0 then -den else den := by
  rw [normalize] at h
  by_cases hn : den < 0
  · simp only [if_pos hn,bind_eq_ok,orFail_eq_ok,checkedNeg,check_eq_some,
      pure_eq_ok,Prod.mk.injEq] at h ⊢
    obtain ⟨_,⟨-,rfl⟩,_,⟨-,rfl⟩,rfl,rfl⟩ := h
    exact ⟨rfl,rfl⟩
  rw [if_neg hn,pure_eq_ok,Prod.mk.injEq] at h
  rw [if_neg hn,if_neg hn]
  exact ⟨h.1.symm,h.2.symm⟩

lemma roundAwayFromZero_eq_ok {q r rem away} (h : roundAwayFromZero q r rem den mode = .ok away) :
    away = Decimal.roundAwayFromZero q r rem den mode := by
  cases mode with
  | Floor => exact (pure_eq_ok.mp h).symm
  | Ceil => rw [← pure_eq_ok.mp h,Decimal.roundAwayFromZero,decide_not]
  | HalfUp =>
    simp only [roundAwayFromZero,bind_eq_ok,orFail_eq_ok,checkedMul_eq_some,pure_eq_ok] at h
    obtain ⟨_,⟨-,rfl⟩,rfl⟩ := h
    rfl
  | HalfEven =>
    simp only [roundAwayFromZero,bind_eq_ok,orFail_eq_ok,checkedMul_eq_some,pure_eq_ok] at h
    obtain ⟨_,⟨-,rfl⟩,rfl⟩ := h
    simp only [Decimal.roundAwayFromZero]
    rcases lt_trichotomy (rem * 2) den with hl | ht | hg
    · simp [hl,hl.ne,hl.not_gt]
    · simp [ht]
    · simp [hg]

lemma decimal_roundDiv_of_ok {q} (h : roundDiv num den mode = .ok q) :
    Decimal.roundDiv num den mode = .ok q := by
  simp only [roundDiv,bind_eq_ok,ensure_eq_ok,Unique.exists_iff] at h
  obtain ⟨he,⟨n,d⟩,hr,h⟩ := h
  obtain ⟨hn,hd⟩ := normalize_eq_ok hr
  simp only [Decimal.roundDiv,← hn,← hd,bind_eq_ok,ensure_eq_ok,Unique.exists_iff]
  refine ⟨he,?_⟩
  simp only at h
  by_cases hz : n.tmod d = 0
  · rw [if_pos hz,pure_eq_ok] at h ⊢
    exact h
  rw [if_neg hz] at h ⊢
  simp only [bind_eq_ok,orFail_eq_ok,checkedAbs,check_eq_some] at h
  obtain ⟨absRemainder,⟨-,_⟩,away,ha,h⟩ := h
  have hm : (if n.tmod d < 0 then -n.tmod d else n.tmod d) = absRemainder := by split <;> omega
  rw [hm,← roundAwayFromZero_eq_ok ha]
  cases away with
  | false =>
    simp only [Bool.false_eq_true,if_false,pure_eq_ok] at h ⊢
    exact h
  | true =>
    simp only [if_true,pure_eq_ok] at h ⊢
    by_cases hg : n.tmod d < 0
    · simp only [if_pos hg,orFail_eq_ok,checkedSub_eq_some] at h ⊢
      exact h.2
    · simp only [if_neg hg,orFail_eq_ok,checkedAdd_eq_some] at h ⊢
      exact h.2

lemma roundDiv_only_overflow {e} (ho : MathError.Overflow ≠ e) (hd : den ≠ 0) :
    Never e (roundDiv num den mode) := by
  refine (never_ensure_of hd).bind fun _ _ => ?_
  refine Never.bind ?_ fun nd _ => ?_
  · rw [normalize,never_ite]
    refine ⟨fun _ => ?_,fun _ => never_pure _ _⟩
    exact (never_orFail ho).bind fun _ _ => (never_orFail ho).bind fun _ _ =>
      never_pure _ _
  · refine never_ite.mpr ⟨fun _ => never_pure _ _,fun _ => ?_⟩
    refine (never_orFail ho).bind fun _ _ => Never.bind ?_ fun away _ => ?_
    · cases mode with
      | Floor => exact never_pure _ _
      | Ceil => exact never_pure _ _
      | HalfUp => exact (never_orFail ho).bind fun _ _ => never_pure _ _
      | HalfEven => exact (never_orFail ho).bind fun _ _ => never_pure _ _
    · refine never_ite.mpr ⟨fun _ => never_ite.mpr ⟨fun _ => ?_,fun _ => ?_⟩,fun _ => ?_⟩
      · exact never_orFail ho
      · exact never_orFail ho
      · exact never_pure _ _

lemma roundDiv_eq_divByZero : roundDiv num den mode = .error .DivByZero ↔ den = 0 := by
  constructor
  · intro h
    by_contra hd
    exact roundDiv_only_overflow (by decide) hd h
  · rintro rfl
    rfl

lemma fits_of_abs_lt {x} (h : |x| < 2 ^ 127) : i128.Fits x := by
  rw [abs_lt] at h
  exact ⟨show -170141183460469231731687303715884105728 ≤ x by omega,
    show x ≤ 170141183460469231731687303715884105727 by omega⟩

lemma roundDiv_never_overflow (hnm : |num| ≤ 2 ^ 126) (he : |den| ≤ 2 ^ 126)
    (mode) : Never .Overflow (roundDiv num den mode) := by
  have hf {x : Int} (hx : |x| < 2 ^ 127) :
      Never MathError.Overflow (orFail (i128.check x) MathError.Overflow) :=
    never_orFail_of (check_of_fits (fits_of_abs_lt hx))
  refine Never.bind (never_ensure (by decide)) fun _ hz => ?_
  rw [ensure_eq_ok] at hz
  refine Never.bind ?_ fun nd hr => ?_
  · refine never_ite.mpr ⟨fun _ => ?_,fun _ => never_pure _ _⟩
    exact (hf (by rw [abs_neg]; omega)).bind fun _ _ =>
      (hf (by rw [abs_neg]; omega)).bind fun _ _ => never_pure _ _
  obtain ⟨n,d⟩ := nd
  obtain ⟨hn,hd⟩ := normalize_eq_ok hr
  have hnb : |n| ≤ 2 ^ 126 := by
    rw [hn]
    split
    · rwa [abs_neg]
    · exact hnm
  have hp : 0 < d ∧ d ≤ 2 ^ 126 := by
    rw [abs_le] at he
    split at hd <;> omega
  have hrm := truncated_tdiv n hp.1
  have ho := hrm.lower
  have hh := hrm.upper
  have hq : |n.tdiv d| ≤ 2 ^ 126 := by
    have hl := Int.natAbs_tdiv_le_natAbs n d
    rw [Int.abs_eq_natAbs] at hnb ⊢
    omega
  rw [abs_le] at hq
  refine never_ite.mpr ⟨fun _ => never_pure _ _,fun _ => ?_⟩
  refine (hf (by rw [abs_lt]; omega)).bind fun rem ha => ?_
  have hm : 0 ≤ rem ∧ rem < d := by
    simp only [orFail_eq_ok,check_eq_some] at ha
    omega
  refine Never.bind ?_ fun away _ => ?_
  · have hb : Never MathError.Overflow (orFail (i128.checkedMul rem 2) .Overflow) :=
      hf (by rw [abs_lt]; omega)
    cases mode with
    | Floor => exact never_pure _ _
    | Ceil => exact never_pure _ _
    | HalfUp => exact hb.bind fun _ _ => never_pure _ _
    | HalfEven => exact hb.bind fun _ _ => never_pure _ _
  · refine never_ite.mpr ⟨fun _ => never_ite.mpr ⟨fun _ => ?_,fun _ => ?_⟩,fun _ => ?_⟩
    · exact hf (by rw [abs_lt]; omega)
    · exact hf (by rw [abs_lt]; omega)
    · exact never_pure _ _

lemma roundDiv_returns (mode) (hz : den ≠ 0) (hn : |num| ≤ 2 ^ 126) (hd : |den| ≤ 2 ^ 126) :
    ∃ q, roundDiv num den mode = .ok q := by
  cases h : roundDiv num den mode with
  | ok q => exact ⟨q,rfl⟩
  | error e =>
    by_cases ho : MathError.Overflow = e
    · subst ho
      exact absurd h (roundDiv_never_overflow hn hd mode)
    · exact absurd h (roundDiv_only_overflow ho hz)

end Money

/-- **The three layers agree**: what the contract's division returns, the backend's and the
frontend's return too, and it is the exact quotient rounded in the given mode. Between numbers of up
to `2 ^ 126` it does return, unless the divisor is zero. -/
theorem roundDiv_layers (num den : Int) (mode : RoundingMode) :
    (∀ q, Money.roundDiv num den mode = .ok q → Decimal.roundDiv num den mode = .ok q ∧
      Format.roundDiv num den mode = .ok q ∧ ∀ z, IsRounding mode ((num : ℚ) / den) z ↔ z = q) ∧
    (Money.roundDiv num den mode = .error .DivByZero ↔ den = 0) ∧
    (|num| ≤ 2 ^ 126 → |den| ≤ 2 ^ 126 → Money.roundDiv num den mode ≠ .error .Overflow) ∧
    (den ≠ 0 → |num| ≤ 2 ^ 126 → |den| ≤ 2 ^ 126 →
      ∃ q, Money.roundDiv num den mode = .ok q) := by
  refine ⟨fun q h => ?_,Money.roundDiv_eq_divByZero,fun hn hd =>
    Money.roundDiv_never_overflow hn hd mode,Money.roundDiv_returns mode⟩
  have hb := Money.decimal_roundDiv_of_ok h
  refine ⟨hb,(Format.roundDiv_eq_decimal num den mode).trans hb,fun z => ?_⟩
  have hd : den ≠ 0 := by
    rintro rfl
    cases h
  obtain ⟨q',hq',hr⟩ := Decimal.roundDiv_spec num hd mode
  obtain rfl : q' = q := by
    rw [hb] at hq'
    exact (Except.ok.inj hq').symm
  constructor
  · intro hz
    exact hz.unique hr
  · rintro rfl
    exact hr

end DukaPay
