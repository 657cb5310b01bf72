import DukaPay.Contractlib.Checked
import DukaPay.Contractlib.Outcome
import Mathlib.Tactic.Linarith

/-! Stroop amounts are `i128` and every division of one goes through `round_div`. -/
namespace DukaPay
open Contractlib

def i128 : IntType where
  lo := -170141183460469231731687303715884105728
  hi := 170141183460469231731687303715884105727

def u32 : NatType where
  hi := 4294967295

def u64 : NatType where
  hi := 18446744073709551615

def u128 : NatType where
  hi := 340282366920938463463374607431768211455

def asU128 (x : Int) : Nat := (x % 340282366920938463463374607431768211456).toNat

def asI128 (n : Nat) : Int :=
  if (n : Int) ≤ i128.hi then n else n - 340282366920938463463374607431768211456

lemma asU128_of_nonneg {x} (h : 0 ≤ x) (hf : i128.Fits x) : (asU128 x : Int) = x := by
  have hh : x ≤ 170141183460469231731687303715884105727 := hf.2
  unfold asU128
  rw [Int.emod_eq_of_lt h (by omega),Int.toNat_of_nonneg h]

lemma asI128_of_le {n : Nat} (h : (n : Int) ≤ i128.hi) : asI128 n = n := if_pos h

namespace Money

def stroopScale : Int := 10000000

inductive RoundingMode
  | HalfEven
  | HalfUp
  | Floor
  | Ceil

inductive MathError
  | Overflow
  | DivByZero
  | DriftDetected
  deriving DecidableEq

def normalize (num den : Int) : Except MathError (Int × Int) :=
  if den < 0 then do
    let num ← orFail (i128.checkedNeg num) .Overflow
    let den ← orFail (i128.checkedNeg den) .Overflow
    pure (num,den)
  else
    pure (num,den)

/-- Whether a quotient with the nonzero remainder `remainder`, of magnitude `absRemainder`, is moved
away from zero. -/
def roundAwayFromZero (quotient remainder absRemainder den : Int) :
    RoundingMode → Except MathError Bool
  | .Floor => pure (decide (remainder < 0))
  | .Ceil => pure (decide (¬ remainder < 0))
  | .HalfUp => do
    let doubled ← orFail (i128.checkedMul absRemainder 2) .Overflow
    pure (decide (den ≤ doubled))
  | .HalfEven => do
    let doubled ← orFail (i128.checkedMul absRemainder 2) .Overflow
    -- an exact tie goes to the even quotient
    pure (decide (den < doubled) || (decide (doubled = den) && decide (quotient.tmod 2 ≠ 0)))

def roundDiv (num den : Int) (mode : RoundingMode) : Except MathError Int := do
  ensure (den ≠ 0) .DivByZero
  let (num,den) ← normalize num den
  -- Rust divides towards zero; the remainder has the sign of the dividend
  let quotient := num.tdiv den
  let remainder := num.tmod den
  if remainder = 0 then
    pure quotient
  else do
    let absRemainder ← orFail (i128.checkedAbs remainder) .Overflow
    let away ← roundAwayFromZero quotient remainder absRemainder den mode
    if away then
      if remainder < 0 then
        orFail (i128.checkedSub quotient 1) .Overflow
      else
        orFail (i128.checkedAdd quotient 1) .Overflow
    else
      pure quotient

lemma ediv_of_tdiv {num den : Int} (hd : 0 < den) :
    num / den = if num.tmod den < 0 then num.tdiv den - 1 else num.tdiv den := by
  have hm := Int.mul_tdiv_add_tmod num den
  have hl : num.tmod den < den := Int.tmod_lt_of_pos num hd
  split
  · next hn =>
    have hg : -den < num.tmod den := Int.lt_tmod_of_pos num hd
    rw [Int.ediv_eq_iff_of_pos hd]
    constructor <;> nlinarith
  · next hp =>
    rw [Int.ediv_eq_iff_of_pos hd]
    constructor <;> nlinarith

lemma roundDiv_floor {num den q} (hd : 0 < den)
    (h : roundDiv num den .Floor = .ok q) : q = num / den := by
  simp only [roundDiv,bind_eq_ok,ensure_eq_ok,exists_const,normalize,
    if_neg (not_lt.mpr hd.le),pure_eq_ok] at h
  obtain ⟨-,⟨_,_⟩,he,h⟩ := h
  obtain ⟨rfl,rfl⟩ := Prod.mk.inj he
  rw [ediv_of_tdiv hd]
  simp only at h
  split at h
  · next hr =>
    rw [pure_eq_ok] at h
    rw [if_neg (by omega),h]
  · next hr =>
    simp only [roundAwayFromZero,bind_eq_ok,pure_eq_ok,exists_eq_left'] at h
    obtain ⟨_,-,h⟩ := h
    by_cases hn : num.tmod den < 0
    · simp only [hn,decide_true,if_true,orFail_eq_ok,IntType.checkedSub_eq_some] at h
      rw [if_pos hn,h.2]
    · simp only [hn,decide_false,Bool.false_eq_true,if_false,pure_eq_ok] at h
      rw [if_neg hn,h]

lemma roundDiv_of_nonneg {num den} (hn : 0 ≤ num) (hf : i128.Fits num)
    (hd : 0 < den) : roundDiv num den .Floor = .ok (num / den) := by
  have hm : 0 ≤ num.tmod den := Int.tmod_nonneg den hn
  have hl : num.tmod den ≤ num := by
    have hml : 0 ≤ den * num.tdiv den := Int.mul_nonneg hd.le (Int.tdiv_nonneg hn hd.le)
    have hs := Int.mul_tdiv_add_tmod num den
    omega
  have ha : i128.checkedAbs (num.tmod den) = some (num.tmod den) := by
    unfold IntType.checkedAbs
    rw [Int.natAbs_of_nonneg hm]
    exact IntType.check_of_fits ⟨le_trans (by decide) hm,le_trans hl hf.2⟩
  have hq : num.tdiv den = num / den := Int.tdiv_eq_ediv_of_nonneg hn
  simp only [roundDiv,bind_eq_ok,ensure_eq_ok,Unique.exists_iff,normalize,
    if_neg (not_lt.mpr hd.le),pure_eq_ok]
  refine ⟨hd.ne',(num,den),rfl,?_⟩
  by_cases hz : num.tmod den = 0
  · simp only [if_pos hz,pure_eq_ok,hq]
  · simp only [if_neg hz,bind_eq_ok,orFail_eq_ok,roundAwayFromZero,pure_eq_ok]
    exact ⟨num.tmod den,ha,false,by simpa using hm,congrArg Except.ok hq⟩

end Money

end DukaPay
