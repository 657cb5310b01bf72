import DukaPay.LoanManager.Defs
import Mathlib.Tactic.Positivity

/-! The debt of a loan has three parts: the remaining principal, the accrued interest and the
accrued late fee. -/
namespace DukaPay
open Contractlib IntType

namespace Loan

def precision : Int := 1000000

def maxPenaltyMultiplier : Int := 2

def remainingPrincipal (loan : Loan) : Res Int :=
  expect (i128.checkedSub loan.amount loan.principalPaid) "principal paid exceeds amount"

def totalInterest (principal : Int) (rateBps elapsed : Nat) : Res Int := do
  let perLedger ← orFail (i128.checkedMul principal rateBps) (.loan .AmountTooLarge)
  let interest ← orFail (i128.checkedMul perLedger elapsed) (.loan .AmountTooLarge)
  let numerator ← orFail (i128.checkedMul interest precision) (.loan .AmountTooLarge)
  let denominator ← orFail (i128.checkedMul 10000 Settings.defaultTerm) (.loan .AmountTooLarge)
  okOr (Money.roundDiv numerator denominator .Floor) (.loan .AmountTooLarge)

def wholeAndResidual (amount : Int) : Res (Int × Int) := do
  let whole ← okOr (Money.roundDiv amount precision .Floor) (.loan .AmountTooLarge)
  let back ← orFail (i128.checkedMul whole precision) (.loan .AmountTooLarge)
  let residual ← orFail (i128.checkedSub amount back) (.loan .AmountTooLarge)
  pure (whole,residual)

def accrueInterest (env : Env) (loan : Loan) : Res Loan :=
  if loan.status ≠ .Approved then
    pure loan
  else if loan.lastInterestLedger = 0 ∨ env.sequence ≤ loan.lastInterestLedger then
    pure loan
  else do
    let principal ← loan.remainingPrincipal
    if principal ≤ 0 then
      pure { loan with lastInterestLedger := env.sequence }
    else do
      let total ←
        totalInterest principal loan.interestRateBps (env.sequence - loan.lastInterestLedger)
      let (interestDelta,newResidual) ← wholeAndResidual total
      let combined ←
        expect (i128.checkedAdd loan.interestResidual newResidual) "attempt to add with overflow"
      let (additional,finalResidual) ← wholeAndResidual combined
      let delta ← orFail (i128.checkedAdd interestDelta additional) (.loan .AmountTooLarge)
      let accrued ← orFail (i128.checkedAdd loan.accruedInterest delta) (.loan .AmountTooLarge)
      pure { loan with
        accruedInterest := accrued
        interestResidual := finalResidual
        lastInterestLedger := env.sequence }

def incrementalFee (amount : Int) (rateBps overdue : Nat) : Res Int := do
  let perLedger ← expect (i128.checkedMul amount rateBps) "late fee overflow"
  let numerator ← expect (i128.checkedMul perLedger overdue) "late fee overflow"
  let denominator ← expect (i128.checkedMul 10000 Settings.defaultTerm) "late fee overflow"
  okOr (Money.roundDiv numerator denominator .Floor) (.panic "late fee overflow")

def chargedFee (fee principal : Int) (loan : Loan) : Res Int := do
  let maxTotalDebt ← expect (i128.checkedMul loan.amount maxPenaltyMultiplier) "debt cap overflow"
  let withInterest ← expect (i128.checkedAdd principal loan.accruedInterest) "debt overflow"
  let debt ← expect (i128.checkedAdd withInterest loan.accruedLateFee) "debt overflow"
  let capacity := (i128.checkedSub maxTotalDebt debt).getD 0
  pure (if capacity ≤ 0 then 0 else min fee capacity)

def addLateFee (charged : Int) (loan : Loan) : Res Int :=
  if 0 < charged then expect (i128.checkedAdd loan.accruedLateFee charged) "late fee overflow"
  else pure loan.accruedLateFee

def accrueLateFee (env : Env) (s : Settings) (loan : Loan) : Res (Loan × Int) :=
  if loan.status ≠ .Approved then
    pure (loan,0)
  else if loan.dueDate = 0 then
    pure (loan,0)
  else do
    let graceEnds ←
      expect (u32.checkedAdd loan.dueDate s.readGracePeriodLedgers) "grace period overflow"
    let lateFeeStart := max loan.lastLateFeeLedger graceEnds
    if env.sequence ≤ graceEnds ∨ env.sequence ≤ lateFeeStart then
      pure (loan,0)
    else do
      let principal ← loan.remainingPrincipal
      if principal ≤ 0 then
        pure ({ loan with lastLateFeeLedger := env.sequence },0)
      else do
        let fee ← incrementalFee loan.amount s.readLateFeeRateBps (env.sequence - lateFeeStart)
        let charged ← chargedFee fee principal loan
        let accrued ← loan.addLateFee charged
        pure ({ loan with accruedLateFee := accrued, lastLateFeeLedger := env.sequence },charged)

def totalDebt (loan : Loan) : Res Int := do
  let principal ← loan.remainingPrincipal
  let withInterest ← expect (i128.checkedAdd principal loan.accruedInterest) "debt overflow"
  expect (i128.checkedAdd withInterest loan.accruedLateFee) "debt overflow"

def currentTotalDebt (env : Env) (s : Settings) (loan : Loan) : Res (Loan × Int × Int) := do
  let loan ← loan.accrueInterest env
  let (loan,lateFeeDelta) ← loan.accrueLateFee env s
  let debt ← loan.totalDebt
  pure (loan,debt,lateFeeDelta)

def remaining (loan : Loan) : Int := loan.amount - loan.principalPaid

def debt (loan : Loan) : Int := loan.remaining + loan.accruedInterest + loan.accruedLateFee

structure InRange (loan : Loan) : Prop where
  amount_pos : 0 < loan.amount
  principalPaid_nonneg : 0 ≤ loan.principalPaid
  principalPaid_le : loan.principalPaid ≤ loan.amount
  accruedInterest_nonneg : 0 ≤ loan.accruedInterest
  accruedLateFee_nonneg : 0 ≤ loan.accruedLateFee
  interestResidual_nonneg : 0 ≤ loan.interestResidual
  interestResidual_lt : loan.interestResidual < 1000000
  collateralAmount_nonneg : 0 ≤ loan.collateralAmount

/-- From `loan` to `loan'`, interest and late fees accrued and nothing else happened. -/
structure Accrues (loan loan' : Loan) : Prop where
  frame : loan' = { loan with
      accruedInterest := loan'.accruedInterest
      interestResidual := loan'.interestResidual
      lastInterestLedger := loan'.lastInterestLedger
      accruedLateFee := loan'.accruedLateFee
      lastLateFeeLedger := loan'.lastLateFeeLedger }
  accruedInterest_le : loan.accruedInterest ≤ loan'.accruedInterest
  accruedLateFee_le : loan.accruedLateFee ≤ loan'.accruedLateFee
  interestResidual_nonneg : 0 ≤ loan'.interestResidual
  interestResidual_lt : loan'.interestResidual < 1000000

variable {env : Env} {s : Settings} {loan loan' : Loan}

lemma InRange.remaining_nonneg (h : loan.InRange) : 0 ≤ loan.remaining := by
  have := h.principalPaid_le
  unfold remaining
  omega

lemma InRange.debt_nonneg (h : loan.InRange) : 0 ≤ loan.debt := by
  have := h.remaining_nonneg
  have := h.accruedInterest_nonneg
  have := h.accruedLateFee_nonneg
  unfold debt
  omega

lemma Accrues.refl (h : loan.InRange) : Accrues loan loan :=
  ⟨rfl,le_refl _,le_refl _,h.interestResidual_nonneg,h.interestResidual_lt⟩

lemma Accrues.trans {loan''} (h : Accrues loan loan') (h' : Accrues loan' loan'') :
    Accrues loan loan'' where
  frame := by
    rw [h'.frame,h.frame]
  accruedInterest_le := le_trans h.accruedInterest_le h'.accruedInterest_le
  accruedLateFee_le := le_trans h.accruedLateFee_le h'.accruedLateFee_le
  interestResidual_nonneg := h'.interestResidual_nonneg
  interestResidual_lt := h'.interestResidual_lt

section
variable (h : Accrues loan loan')

include h

lemma Accrues.amount : loan'.amount = loan.amount := (congrArg Loan.amount h.frame :)

lemma Accrues.borrower : loan'.borrower = loan.borrower := (congrArg Loan.borrower h.frame :)

lemma Accrues.status : loan'.status = loan.status := (congrArg Loan.status h.frame :)

lemma Accrues.collateralAmount : loan'.collateralAmount = loan.collateralAmount :=
  (congrArg Loan.collateralAmount h.frame :)

lemma Accrues.interestPaid : loan'.interestPaid = loan.interestPaid :=
  (congrArg Loan.interestPaid h.frame :)

lemma Accrues.lateFeePaid : loan'.lateFeePaid = loan.lateFeePaid :=
  (congrArg Loan.lateFeePaid h.frame :)

lemma Accrues.remaining : loan'.remaining = loan.remaining := (congrArg Loan.remaining h.frame :)

end

lemma Accrues.inRange (h : Accrues loan loan') (hr : loan.InRange) : loan'.InRange := by
  have hi := h.accruedInterest_le
  have hf := h.accruedLateFee_le
  have hs := h.interestResidual_nonneg
  have hr' := h.interestResidual_lt
  obtain ⟨h1,h2,h3,h4,h5,-,-,h8⟩ := hr
  rw [h.frame]
  exact ⟨h1,h2,h3,le_trans h4 hi,le_trans h5 hf,hs,hr',h8⟩

variable {total principal : Int}

lemma eq_of_remainingPrincipal (h : loan.remainingPrincipal = .ok principal) :
    principal = loan.remaining := by
  simp only [remainingPrincipal,expect_eq_ok,checkedSub_eq_some] at h
  exact h.2.symm

lemma eq_of_totalInterest {rateBps elapsed}
    (h : totalInterest principal rateBps elapsed = .ok total) :
    total = principal * rateBps * elapsed * 1000000 / 172800000 := by
  simp only [totalInterest,eq_ok,checkedMul_eq_some,okOr_eq_ok] at h
  obtain ⟨_,⟨-,rfl⟩,_,⟨-,rfl⟩,_,⟨-,rfl⟩,_,⟨-,rfl⟩,h⟩ := h
  exact Money.roundDiv_floor (by decide) h

lemma eq_of_wholeAndResidual {x whole residual} (h : wholeAndResidual x = .ok (whole,residual)) :
    whole = x / 1000000 ∧ residual = x % 1000000 := by
  simp only [wholeAndResidual,eq_ok,checkedMul_eq_some,checkedSub_eq_some,okOr_eq_ok,
    Prod.mk.injEq] at h
  obtain ⟨_,hd,_,⟨-,rfl⟩,_,⟨-,rfl⟩,rfl,rfl⟩ := h
  have hw := Money.roundDiv_floor (by decide) hd
  unfold precision at hw ⊢
  omega

/-- The interest that accrues on a loan until the ledger of `env`. The units carried over from
earlier accruals count with the new ones. -/
def interestDue (env : Env) (loan : Loan) : Int :=
  if loan.lastInterestLedger = 0 ∨ env.sequence ≤ loan.lastInterestLedger then 0
  else
    (loan.interestResidual +
      loan.remaining * loan.interestRateBps * (env.sequence - loan.lastInterestLedger : Nat) *
        1000000 / 172800000) / 1000000

/-- The accrued interest in millionths, with the units that are carried over. -/
def scaledInterest (loan : Loan) : Int := loan.accruedInterest * 1000000 + loan.interestResidual

def interestOver (loan : Loan) (elapsed : Nat) : Int :=
  max 0 loan.remaining * loan.interestRateBps * elapsed * 1000000 / 172800000

lemma scaled_of_accrueInterest (hs : loan.status = .Approved)
    (hr : 0 ≤ loan.interestResidual ∧ loan.interestResidual < 1000000)
    (h : loan.accrueInterest env = .ok loan') :
    loan' = { loan with
        accruedInterest := loan'.accruedInterest
        interestResidual := loan'.interestResidual
        lastInterestLedger := loan'.lastInterestLedger } ∧
      loan.accruedInterest ≤ loan'.accruedInterest ∧
      (0 ≤ loan'.interestResidual ∧ loan'.interestResidual < 1000000) ∧
      if loan.lastInterestLedger = 0 ∨ env.sequence ≤ loan.lastInterestLedger then loan' = loan
      else loan'.lastInterestLedger = env.sequence ∧ loan'.scaledInterest =
        loan.scaledInterest + loan.interestOver (env.sequence - loan.lastInterestLedger) := by
  unfold accrueInterest at h
  rw [if_neg (not_not.mpr hs)] at h
  split at h
  · next hd =>
    cases h
    exact ⟨rfl,le_refl _,hr,by rw [if_pos hd]⟩
  · next hd =>
    rw [if_neg hd]
    simp only [bind_eq_ok] at h
    obtain ⟨_,hp,h⟩ := h
    cases eq_of_remainingPrincipal hp
    split at h
    · next hz =>
      -- nothing is left to bear interest
      cases h
      refine ⟨rfl,le_refl _,hr,rfl,?_⟩
      simp [scaledInterest,interestOver,max_eq_left hz]
    · next hps =>
      simp only [eq_ok,Prod.exists] at h
      obtain ⟨total,ht,_,_,hw,_,⟨-,rfl⟩,_,_,hf,_,⟨-,rfl⟩,_,⟨-,rfl⟩,rfl⟩ := h
      obtain ⟨rfl,rfl⟩ := eq_of_wholeAndResidual hw
      obtain ⟨rfl,rfl⟩ := eq_of_wholeAndResidual hf
      have htotal' : total = loan.interestOver (env.sequence - loan.lastInterestLedger) := by
        rw [eq_of_totalInterest ht,interestOver,max_eq_right (by omega)]
      have hn : 0 ≤ loan.interestOver (env.sequence - loan.lastInterestLedger) :=
        Int.ediv_nonneg (by positivity) (by decide)
      refine ⟨rfl,?_,?_,rfl,?_⟩ <;> simp only [scaledInterest] <;> omega

lemma of_accrueInterest (hr : loan.InRange) (hs : loan.status = .Approved)
    (h : loan.accrueInterest env = .ok loan') :
    Accrues loan loan' ∧ loan'.accruedLateFee = loan.accruedLateFee ∧
      loan'.accruedInterest = loan.accruedInterest + loan.interestDue env := by
  have hrs := hr.interestResidual_lt
  obtain ⟨hfr,hl,hr',hc⟩ :=
    scaled_of_accrueInterest hs ⟨hr.interestResidual_nonneg,hrs⟩ h
  have hf : loan'.accruedLateFee = loan.accruedLateFee := (congrArg accruedLateFee hfr :)
  have ht : loan'.lastLateFeeLedger = loan.lastLateFeeLedger :=
    (congrArg lastLateFeeLedger hfr :)
  refine ⟨⟨by rw [hf,ht]; exact hfr,hl,hf.ge,hr'.1,hr'.2⟩,hf,?_⟩
  unfold interestDue
  split at hc
  · next hd => rw [hc,if_pos hd,add_zero]
  · next hd =>
    rw [if_neg hd]
    simp only [scaledInterest,interestOver,max_eq_right hr.remaining_nonneg] at hc
    omega

lemma incrementalFee_nonneg {x fee rateBps overdue} (h0 : 0 ≤ x)
    (h : incrementalFee x rateBps overdue = .ok fee) : 0 ≤ fee := by
  simp only [incrementalFee,eq_ok,checkedMul_eq_some,okOr_eq_ok] at h
  obtain ⟨_,⟨-,rfl⟩,_,⟨-,rfl⟩,_,⟨-,rfl⟩,h⟩ := h
  rw [Money.roundDiv_floor (by decide) h]
  exact Int.ediv_nonneg (by positivity) (by decide)

lemma of_chargedFee {fee chg} (h0 : 0 ≤ fee) (h : loan.chargedFee fee loan.remaining = .ok chg) :
    0 ≤ chg ∧ (loan.debt ≤ 2 * loan.amount → loan.debt + chg ≤ 2 * loan.amount) ∧
    (2 * loan.amount < loan.debt → chg = 0) := by
  simp only [chargedFee,eq_ok,checkedMul_eq_some,checkedAdd_eq_some] at h
  obtain ⟨_,⟨-,rfl⟩,_,⟨-,rfl⟩,_,⟨-,rfl⟩,rfl⟩ := h
  unfold maxPenaltyMultiplier debt
  -- a capacity that is not representable counts as none
  cases hc : i128.checkedSub (loan.amount * 2)
      (loan.remaining + loan.accruedInterest + loan.accruedLateFee) with
  | none => simp
  | some =>
    rw [checkedSub_eq_some] at hc
    rw [Option.getD_some]
    split <;> omega

lemma of_accrueLateFee {charged} (hr : loan.InRange)
    (h : loan.accrueLateFee env s = .ok (loan',charged)) :
    Accrues loan loan' ∧ loan'.accruedInterest = loan.accruedInterest ∧
    (loan'.debt ≤ 2 * loan.amount ↔ loan.debt ≤ 2 * loan.amount) := by
  have hs : Accrues loan loan := .refl hr
  unfold accrueLateFee at h
  split at h
  · cases h
    exact ⟨hs,rfl,Iff.rfl⟩
  split at h
  · cases h
    exact ⟨hs,rfl,Iff.rfl⟩
  simp only [bind_eq_ok] at h
  obtain ⟨_,-,h⟩ := h
  split at h
  · cases h
    exact ⟨hs,rfl,Iff.rfl⟩
  simp only [bind_eq_ok] at h
  obtain ⟨_,hp,h⟩ := h
  cases eq_of_remainingPrincipal hp
  split at h
  · cases h
    exact ⟨⟨rfl,le_refl _,le_refl _,hs.interestResidual_nonneg,hs.interestResidual_lt⟩,rfl,Iff.rfl⟩
  simp only [bind_eq_ok] at h
  obtain ⟨_,hf,charged',hc,acc,ha,h⟩ := h
  obtain ⟨rfl,rfl⟩ := Prod.mk.inj (pure_eq_ok.mp h)
  obtain ⟨_,hcp,_⟩ := of_chargedFee (incrementalFee_nonneg hr.amount_pos.le hf) hc
  have he : acc = loan.accruedLateFee + charged' := by
    unfold addLateFee at ha
    split at ha
    · rw [expect_eq_ok,checkedAdd_eq_some] at ha
      exact ha.2.symm
    · rw [pure_eq_ok] at ha
      omega
  refine ⟨⟨rfl,le_refl _,?_,hs.interestResidual_nonneg,hs.interestResidual_lt⟩,rfl,?_⟩
  · show loan.accruedLateFee ≤ acc
    omega
  · have hd : Loan.debt { loan with accruedLateFee := acc, lastLateFeeLedger := env.sequence } =
          loan.debt + charged' := by
      simp only [debt,remaining,he]
      omega
    rw [hd]
    constructor
    · omega
    · exact hcp

lemma eq_of_totalDebt (h : loan.totalDebt = .ok total) :
    i128.Fits loan.debt ∧ total = loan.debt := by
  simp only [totalDebt,eq_ok,checkedAdd_eq_some] at h
  obtain ⟨_,hp,_,⟨-,rfl⟩,hf,rfl⟩ := h
  rw [eq_of_remainingPrincipal hp] at hf ⊢
  exact ⟨hf,rfl⟩

/-- **Accrual**: bringing an approved loan up to date accrues interest and late fees; the result is
within twice the original amount exactly when the debt without new late fees is. -/
lemma of_currentTotalDebt {lateFeeDelta} (hr : loan.InRange) (hs : loan.status = .Approved)
    (h : loan.currentTotalDebt env s = .ok (loan',total,lateFeeDelta)) :
    Accrues loan loan' ∧ total = loan'.debt ∧
    (total ≤ 2 * loan.amount ↔ loan.debt + loan.interestDue env ≤ 2 * loan.amount) := by
  simp only [currentTotalDebt,eq_ok,Prod.exists,Prod.mk.injEq] at h
  obtain ⟨_,h1,_,_,h2,_,ht,rfl,rfl,rfl⟩ := h
  obtain ⟨ha1,hf1,hi1⟩ := of_accrueInterest hr hs h1
  obtain ⟨ha2,-,hc⟩ := of_accrueLateFee (ha1.inRange hr) h2
  have ht' := (eq_of_totalDebt ht).2
  refine ⟨ha1.trans ha2,ht',?_⟩
  rw [ht',← ha1.amount,hc,debt,ha1.remaining,hi1,hf1,debt]
  constructor <;> intro <;> omega

end Loan

end DukaPay
