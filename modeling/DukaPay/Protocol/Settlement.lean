import DukaPay.Protocol.Operations

/-! Defaults, liquidations, repayments and refinancing as postings. -/
namespace DukaPay
open Contractlib LoanManager Loan World
variable {d : Deployment} {env : Env} {w w' : World} {id : Nat}

def recoveryAmounts (principal recovered : Int) : Amounts where
  gain := max 0 (recovered - principal)
  loss := max 0 (principal - recovered)
  inflow := recovered
  outflow := 0

lemma posting_of_markDefaulted {old} (hw : w.Sound d)
    (ho : w.manager.loans.lookup id = some old) (ha : old.status = .Approved)
    (h : markDefaulted d env id old w = .ok w') :
    Posting d id (some { old with status := .Defaulted, collateralAmount := 0 })
      (recoveryAmounts old.remaining old.collateralAmount) w w' := by
  simp only [markDefaulted,eq_ok] at h
  obtain ⟨_,hp,_,hk,m,hm,_,hw1,_,hw2,_,-,-,-,rfl⟩ := h
  cases eq_of_remainingPrincipal hp
  cases hw.token_eq hk
  have hs := hw.loan id old ho
  have hc := (LoanManager.Updates.close id hm).trans
    (.setLoan d id { old with status := .Defaulted } m)
  have hst : LoanManager.Updates d id (some { old with status := .Defaulted })
      (-old.amount + 0) [] w.manager ((m.setLoan id
        { old with status := .Defaulted }).decrementBorrowerLoanCount old.borrower) :=
    hc.congr rfl rfl rfl rfl rfl
  -- the record that is read again is the one just stored
  have hr := hst.loans.lookup_self
  obtain ⟨hp1,hf,hz⟩ := of_seizeCollateralInternal hw1
    (hst.settings ▸ hw.token) (hst.settings ▸ hw.lendingPool) hr
    hs.collateralAmount_nonneg
  obtain ⟨_,rfl,ht⟩ := of_recordPoolRecovery hw2
  rw [hp1] at ht
  refine .of_updates ho ((hst.trans hz).hear [(.Defaulted,id)] rfl rfl rfl rfl rfl) ?_
    (.closed { hs.toInRange with collateralAmount_nonneg := le_refl 0 } hs.borrower_pool
      hs.borrower_manager
      (show LoanStatus.Terminal .Defaulted by decide) rfl ?_) ?_ ?_ ht ?_ ?_
  · rw [ha]
    exact .inr .default
  · rintro ⟨⟩
  · simp [owed,ha]
  · simpa [recoveryAmounts] using hf
  · simp only [recoveryAmounts,receivable,ha,if_true,reduceCtorEq,if_false]
    omega
  · simp [announcement,ha]

def LoanManager.isPastDue (env : Env) (loan : Loan) (m : LoanManager) : Bool :=
  match m.defaultEnds loan with
  | .ok ends => decide (ends < env.sequence)
  | .error _ => false

variable {loan : Loan} {m : LoanManager} {amount collateral : Int} {completed : Bool}
  {borrower : Address}

lemma LoanManager.isPastDue_of_lt {ends} (h : m.defaultEnds loan = .ok ends)
    (hl : ends < env.sequence) : m.isPastDue env loan = true := by
  simp [isPastDue,h,hl]

/-- Loan `id`, approved and past due, is marked as defaulted. -/
abbrev Defaulting (d : Deployment) (env : Env) (id : Nat) (w w' : World) : Prop :=
  ∃ old : Loan, w.manager.loans.lookup id = some old ∧ old.status = .Approved ∧
    w.manager.isPastDue env old = true ∧
    Posting d id (some { old with status := .Defaulted, collateralAmount := 0 })
      (recoveryAmounts old.remaining old.collateralAmount) w w'

lemma posting_of_checkDefault (hw : w.Sound d)
    (h : checkDefault d env id w = .ok w') : Defaulting d env id w w' := by
  simp only [checkDefault,eq_ok,readLoan_eq_ok] at h
  obtain ⟨_,-,-,-,old,ho,ha,_,he,hl,h⟩ := h
  exact ⟨old,ho,ha,isPastDue_of_lt he hl,posting_of_markDefaulted hw ho ha h⟩

lemma of_checkDefaultsStep {n n'} (hw : w.Sound d)
    (h : checkDefaultsStep d env (w,n) id = .ok (w',n')) : w' = w ∨ Defaulting d env id w w' := by
  unfold checkDefaultsStep at h
  split at h
  · cases h
    exact .inl rfl
  · next old ho =>
    split at h
    · cases h
      exact .inl rfl
    · next ha =>
      simp only [bind_eq_ok] at h
      obtain ⟨_,he,h⟩ := h
      split at h
      · cases h
        exact .inl rfl
      · next hl =>
        simp only [eq_ok,Prod.mk.injEq] at h
        obtain ⟨_,hw1,_,-,rfl,-⟩ := h
        have ha' := Decidable.not_not.mp ha
        exact .inr ⟨old,ho,ha',isPastDue_of_lt he (by omega),posting_of_markDefaulted hw ho ha' hw1⟩

/-- **Batch rule**: `I ids` holds with the loans `ids` still to be looked at. If skipping a loan and
marking it as defaulted both keep it, it holds after the batch. -/
lemma checkDefaults_induction {I : List Nat → World → Prop}
    (hs : ∀ id ids u, I (id :: ids) u → I ids u)
    (ht : ∀ id ids u u', u.Sound d → Defaulting d env id u u' → I (id :: ids) u → I ids u')
    {ids n} (hw : w.Sound d)
    (h : checkDefaults d env ids w = .ok (w',n)) (hI : I ids w) : I [] w' := by
  simp only [checkDefaults,bind_eq_ok,Unique.exists_iff] at h
  obtain ⟨_,-,-,-,h⟩ := h
  generalize 0 = count at h
  induction ids generalizing w count with
  | nil =>
    cases h
    exact hI
  | cons id ids ih =>
    simp only [List.foldlM_cons,bind_eq_ok,Prod.exists] at h
    obtain ⟨w1,count1,h1,h⟩ := h
    rcases of_checkDefaultsStep hw h1 with rfl | hd
    · exact ih hw (hs id ids w1 hI) count1 h
    · have ⟨_,_,_,_,hp⟩ := hd
      exact ih (hp.world_sound hw) (ht id ids w w1 hw hd hI) count1 h

lemma of_liquidationPayout {debt bon pay} (hb : 0 ≤ bon)
    (h : liquidationPayout collateral debt bon = .ok pay) :
    pay.debtRepaid = min collateral debt ∧ 0 ≤ pay.liquidatorBonus ∧ 0 ≤ pay.borrowerRefund ∧
    pay.debtRepaid + pay.liquidatorBonus + pay.borrowerRefund = collateral := by
  unfold liquidationPayout at h
  split at h
  · simp only [eq_ok] at h
    obtain ⟨_,⟨-,rfl⟩,_,⟨-,rfl⟩,rfl⟩ := h
    simp only
    omega
  cases h
  simp only
  omega

lemma configuredBonus_nonneg {bonus} (h0 : 0 ≤ collateral)
    (h : m.configuredBonus collateral = .ok bonus) : 0 ≤ bonus := by
  simp only [configuredBonus,eq_ok,okOr_eq_ok] at h
  obtain ⟨_,⟨-,rfl⟩,h⟩ := h
  rw [Money.roundDiv_floor (by decide) h]
  exact Int.ediv_nonneg (mul_nonneg h0 (by positivity)) (by decide)

lemma Flow.releasedPositive {r b b'} (h : amount = 0 ∧ b' = b ∨
    Bank.Moved ⟨d.token,d.manager,r,amount,some d.manager⟩ b b')
    (hp : r ≠ d.pool) (hm : r ≠ d.manager) : Flow d d.token 0 0 (-amount) b b' := by
  rcases h with ⟨rfl,rfl⟩ | hv
  · exact .refl _ _ _
  · exact .released hv hp hm

lemma Flow.seizedPositive {b b'} (h : amount = 0 ∧ b' = b ∨
    Bank.Moved ⟨d.token,d.manager,d.pool,amount,some d.manager⟩ b b') :
    Flow d d.token amount 0 (-amount) b b' := by
  rcases h with ⟨rfl,rfl⟩ | hm
  · exact .refl _ _ _
  · exact .seized hm

lemma posting_of_liquidate {liquidator} (hw : w.Sound d) (he : env.External d)
    (h : liquidate d env liquidator id w = .ok w') :
    ∃ (old acc : Loan) (split : Loan.Split), w.manager.loans.lookup id = some old ∧
    old.status = .Approved ∧ Loan.Accrues old acc ∧
    split.Covers (min old.collateralAmount acc.debt) acc ∧
    Posting d id (some { acc.paid split with status := .Liquidated, collateralAmount := 0 })
        (recoveryAmounts old.remaining (min old.collateralAmount acc.debt)) w w' := by
  simp only [liquidate,eq_ok,readLoan_eq_ok,Prod.exists] at h
  obtain ⟨ha,-,old,ho,hap,acc,_,_,hac,h⟩ := h
  obtain ⟨_,-,_,-,-,_,hn,_,hy,_,hp,h⟩ := h
  obtain ⟨_,hl,_,hk,m,hm,pool,hpl,h⟩ := h
  obtain ⟨_,hw1,_,hw2,_,hw3,_,hw4,rfl⟩ := h
  cases eq_of_remainingPrincipal hp
  cases hw.token_eq hk
  have hs := hw.loan id old ho
  obtain ⟨hc,rfl,-⟩ := of_currentTotalDebt hs.toInRange hap hac
  have hr := hc.inRange hs.toInRange
  have hc0 := hr.collateralAmount_nonneg
  have hd0 := hr.debt_nonneg
  obtain ⟨hrp,hb0,hr0,hsm⟩ := of_liquidationPayout (configuredBonus_nonneg hc0 hn) hy
  obtain ⟨split,hv,rfl⟩ := covers_of_applyDebtRecovery hr (by omega) (by omega) hl
  have hrn := hv.inRange hr
  rw [hrp] at hv
  rw [hc.collateralAmount] at hv hrp hsm
  have hcl := hs.collateralAmount_nonneg
  have hcls := LoanManager.Updates.close id hm
  have hln : pool = d.pool := by
    have hm' : m.lendingPool = some d.pool := hcls.settings ▸ hw.lendingPool
    exact Option.some.inj ((show m.lendingPool = some pool from hpl).symm.trans hm')
  subst hln
  -- three payments out of the collateral, with the booking of the pool in between
  obtain ⟨_,rfl,hb1⟩ := of_transferPositive (by omega) hw1
  obtain ⟨_,rfl,ht⟩ := of_recordPoolRecovery hw2
  obtain ⟨_,rfl,hb2⟩ := of_transferPositive hb0 hw3
  obtain ⟨_,rfl,hb3⟩ := of_transferPositive hr0 hw4
  have hb : (acc.paid split).borrower = old.borrower := hc.borrower
  have hf := ((Flow.seizedPositive hb1).trans (Flow.releasedPositive hb2
    (he.not_pool ha) (he.not_manager ha))).trans (Flow.releasedPositive hb3
    (hb ▸ hs.borrower_pool) (hb ▸ hs.borrower_manager))
  rw [hrp,hc.remaining] at ht
  refine ⟨old,acc,split,ho,hap,hc,hv,.of_updates ho
    ((hcls.trans (.setLoan d id _ m)).congr rfl rfl rfl rfl rfl) ?_
    (.closed ⟨hrn.amount_pos,hrn.principalPaid_nonneg,hrn.principalPaid_le,
      hrn.accruedInterest_nonneg,hrn.accruedLateFee_nonneg,hrn.interestResidual_nonneg,
      hrn.interestResidual_lt,le_refl 0⟩ (hb ▸ hs.borrower_pool)
      (hb ▸ hs.borrower_manager) (show LoanStatus.Terminal .Liquidated by decide) rfl ?_)
    ?_ ?_ ht ?_ ?_⟩
  · rw [hap]
    exact .inr .liquidate
  · rintro ⟨⟩
  · have ham : (acc.paid split).amount = old.amount := hc.amount
    simp [owed,hap,ham]
  · refine hf.cast ?_ ?_ ?_
    · simp only [recoveryAmounts]
      omega
    · rfl
    · show _ = 0 - old.collateralAmount
      omega
  · simp only [recoveryAmounts,receivable,hap,if_true,reduceCtorEq,if_false]
    omega
  · simp [announcement]

def Loan.cleared (loan : Loan) : Loan :=
  { loan with accruedInterest := 0, accruedLateFee := 0, principalPaid := loan.amount }

lemma of_forgiveDust (dust) (hr : loan.InRange) :
    (forgiveDust dust loan = (loan,false) ∧ dust = false ∧ 0 < loan.debt) ∨
    (forgiveDust dust loan = (loan.cleared,true) ∧ (dust = false → loan.remaining = 0)) := by
  have h1 := hr.remaining_nonneg
  have h2 := hr.accruedInterest_nonneg
  have h3 := hr.accruedLateFee_nonneg
  have h4 := hr.principalPaid_le
  unfold forgiveDust isFullyRepaid
  by_cases hl : loan.principalPaid = loan.amount ∧ loan.accruedInterest = 0 ∧
      loan.accruedLateFee = 0
  · right
    obtain ⟨hp,hi,hf⟩ := hl
    refine ⟨?_,fun _ => ?_⟩
    · have hs : loan.cleared = loan := by
        obtain ⟨⟩ := loan
        simp_all [cleared]
      simp [hp,hi,hf,hs]
    · unfold remaining
      omega
  · cases dust with
    | false =>
      left
      refine ⟨by simp [hl],rfl,?_⟩
      unfold debt remaining at *
      omega
    | true =>
      right
      refine ⟨?_,by simp⟩
      have hif : (if loan.principalPaid < loan.amount then loan.amount else loan.principalPaid) =
          loan.amount := by
        split <;> omega
      simp [hl,hif,cleared]

lemma of_closeRepaid (id : Nat) {loan' m'}
    (h : m.closeRepaid d.token completed loan = .ok (loan',m')) :
    loan' = (if completed = true then { loan with status := .Repaid } else loan) ∧
      LoanManager.Updates d id (m.loans.lookup id) (if completed = true then -loan.amount else 0)
        [] m m' := by
  cases completed with
  | true =>
    simp only [closeRepaid,if_true,eq_ok,Prod.mk.injEq] at h
    obtain ⟨_,hm,rfl,rfl⟩ := h
    exact ⟨rfl,(LoanManager.Updates.close id hm).congr rfl rfl rfl rfl rfl⟩
  | false =>
    cases h
    exact ⟨rfl,.refl rfl⟩

lemma of_recordForgiven {forgiven t principal rcv} (hl : rcv ≤ principal)
    (h : recordForgiven d env forgiven t principal rcv w = .ok w') :
    ∃ p, w' = { w with pool := p } ∧
      Settled t 0 (if forgiven = true then principal - rcv else 0) w.pool p := by
  cases forgiven with
  | true =>
    obtain ⟨p,rfl,hp⟩ := of_recordPoolRecovery h
    rw [max_eq_left (by omega),max_eq_right (by omega)] at hp
    exact ⟨p,rfl,hp⟩
  | false =>
    cases h
    exact ⟨w.pool,rfl,.refl t w.pool⟩

lemma of_releaseRepaid (h : releaseRepaid d env completed borrower id amount w = .ok w')
    (ht : w.manager.token = some d.token) (hl : w.manager.loans.lookup id = some loan)
    (h0 : 0 ≤ loan.collateralAmount) (hp : borrower ≠ d.pool) (hm : borrower ≠ d.manager) :
    w'.pool = w.pool ∧
    Flow d d.token 0 0 (if completed = true then -loan.collateralAmount else 0) w.bank w'.bank ∧
    LoanManager.Updates d id
    (some (if completed = true then { loan with collateralAmount := 0 } else loan)) 0 []
        w.manager w'.manager := by
  cases completed with
  | true =>
    simp only [releaseRepaid,if_true,eq_ok] at h
    obtain ⟨_,hw1,rfl⟩ := h
    obtain ⟨hpl,hf,hu⟩ := of_releaseCollateralInternal hw1 ht hl h0 hp hm
    exact ⟨hpl,hf,hu.congr rfl rfl rfl rfl rfl⟩
  | false =>
    cases h
    exact ⟨rfl,.refl _ _ _,.refl hl⟩

lemma LoanManager.Updates.publishRepayment {δ new said m'}
    (hu : LoanManager.Updates d id new δ said m m') (env completed borrower amount fee) :
    LoanManager.Updates d id new δ said m
    (m'.publishRepayment env completed borrower id amount fee) := by
  unfold LoanManager.publishRepayment
  split <;> split <;> exact hu.congr rfl rfl rfl rfl rfl

def repaymentAmounts (minRepaymentAmount amount : Int) (accrued : Loan) (split : Loan.Split) :
    Amounts where
  gain := split.interest + split.lateFee
  loss :=
    if accrued.debt ≤ minRepaymentAmount ∧ amount < accrued.debt then
      accrued.remaining - split.principal
    else 0
  inflow := amount
  outflow := 0

lemma posting_of_repay (hw : w.Sound d) (hev : env.External d)
    (h : repay d env borrower id amount w = .ok w') :
    ∃ (old acc new : Loan) (split : Loan.Split), w.manager.loans.lookup id = some old ∧
    old.status = .Approved ∧
    (∃ fee, old.currentTotalDebt env w.manager.toSettings = .ok (acc,acc.debt,fee)) ∧
    Loan.Accrues old acc ∧ split.Covers amount acc ∧
    new.interestPaid = old.interestPaid + split.interest ∧
    new.lateFeePaid = old.lateFeePaid + split.lateFee ∧ Posting d id (some new)
    (repaymentAmounts w.manager.readMinRepaymentAmount amount acc split) w w' := by
  simp only [repay,eq_ok,readLoan_eq_ok,Prod.exists] at h
  obtain ⟨ha,-,-,hps,old,ho,rfl,hap,_,-,-,h⟩ := h
  obtain ⟨acc,_,fd,hac,hle,-,_,hk,_,hpl,h⟩ := h
  obtain ⟨principal,hp,split,hsp,_,hpd,_,-,cls,m,hcl,h⟩ := h
  obtain ⟨_,hw1,_,⟨-,rfl⟩,_,hw2,_,hw3,w4,hw4,-,rfl⟩ := h
  cases eq_of_remainingPrincipal hp
  cases hw.token_eq hk
  cases hw.lendingPool_eq hpl
  have hs := hw.loan id old ho
  obtain ⟨hc,rfl,-⟩ := of_currentTotalDebt hs.toInRange hap hac
  have hr := hc.inRange hs.toInRange
  have hv := covers_of_proportionalRepaymentSplit hr hps hle hsp
  cases eq_of_applySplit hpd
  have hrn := hv.inRange hr
  obtain ⟨_,rfl,hb1⟩ := of_transfer hw1
  obtain ⟨_,rfl,-,-,hp2⟩ := of_recordLoanYield hw2
  obtain ⟨_,rfl,hp3⟩ := of_recordForgiven hv.principal_le hw3
  have hse := hp3.after_gain hp2
  simp only [Bool.and_eq_true,decide_eq_true_eq] at hse
  have hnp := hev.not_pool ha
  have hnm := hev.not_manager ha
  have hpa := Flow.paidIn hb1 (.inr rfl) hnp hnm
  have hb : (acc.paid split).borrower = old.borrower := hc.borrower
  have ht : (acc.paid split).status = .Approved := hc.status.trans hap
  have hm : (acc.paid split).amount = old.amount := hc.amount
  have hco : (acc.paid split).collateralAmount = old.collateralAmount := hc.collateralAmount
  have hsm := hv.sum_eq
  have hrm := acc.remaining_paid split
  have hpr := hc.remaining
  rcases of_forgiveDust (decide (acc.debt ≤ w.manager.readMinRepaymentAmount)) hrn
    with ⟨he,hds,hd⟩ | ⟨he,hds⟩
  · -- the loan goes on
    rw [he] at hcl hw4 ⊢
    obtain ⟨hl,hu⟩ := of_closeRepaid id hcl
    obtain rfl : cls = acc.paid split := hl
    cases hw4
    have hst : LoanManager.Updates d id (some (acc.paid split)) 0 [] w.manager
        (m.setLoan id (acc.paid split)) := hu.trans (.setLoan d id _ m)
    refine ⟨old,acc,acc.paid split,split,ho,hap,⟨fd,hac⟩,
      hc,hv,congrArg (· + split.interest) hc.interestPaid,
      congrArg (· + split.lateFee) hc.lateFeePaid,.of_updates ho
        (hst.publishRepayment env false old.borrower amount fd) (.inl hc.status)
        (.approved hrn (hb ▸ hnp) (hb ▸ hnm) ht hd) ?_ ?_ hse ?_ ?_⟩
    · simp only [owed,ht,hap,if_true,hm,sub_self]
    · refine hpa.cast rfl rfl ?_
      rw [hco,sub_self]
    · have hmr : ¬ acc.debt ≤ w.manager.readMinRepaymentAmount := of_decide_eq_false hds
      simp only [repaymentAmounts,receivable,ht,hap,if_true,hmr,false_and,if_false]
      omega
    · simp [announcement,ht,hap]
  · -- the loan is completed
    rw [he] at hcl hw4 ⊢
    obtain ⟨hl,hu⟩ := of_closeRepaid id hcl
    obtain rfl : cls = { (acc.paid split).cleared with status := .Repaid } := hl
    have hst := hu.trans (.setLoan d id { (acc.paid split).cleared with status := .Repaid } m)
    obtain ⟨hp4,hfw,hrl⟩ := of_releaseRepaid hw4 (hst.settings ▸ hw.token)
      hst.loans.lookup_self hrn.collateralAmount_nonneg (hb ▸ hnp) (hb ▸ hnm)
    have hn : LoanManager.Updates d id
        (some { (acc.paid split).cleared with status := .Repaid, collateralAmount := 0 })
        (-acc.amount + 0 + 0) [] w.manager w4.manager := hst.trans hrl
    refine ⟨old,acc,
      { (acc.paid split).cleared with status := .Repaid, collateralAmount := 0 },split,ho,
      hap,⟨fd,hac⟩,hc,hv,
      congrArg (· + split.interest) hc.interestPaid,
      congrArg (· + split.lateFee) hc.lateFeePaid,.of_updates ho
        (hn.publishRepayment env true old.borrower amount fd) ?_
        (.closed ?_ (hb ▸ hnp) (hb ▸ hnm)
          (show LoanStatus.Terminal .Repaid by decide) rfl fun _ => ⟨rfl,rfl,rfl⟩)
        ?_ ?_ (hp4 ▸ hse) ?_ ?_⟩
    · rw [hap]
      exact .inr .repay
    · exact ⟨hrn.amount_pos,hrn.amount_pos.le,le_refl _,le_refl 0,le_refl 0,
        hrn.interestResidual_nonneg,hrn.interestResidual_lt,le_refl 0⟩
    · simp only [owed,hap,if_true,reduceCtorEq,if_false,hc.amount]
      omega
    · refine (hpa.trans hfw).cast (add_zero amount) rfl ?_
      show 0 + -(acc.paid split).collateralAmount = 0 - old.collateralAmount
      omega
    · -- what is left of the principal is forgiven, or there is nothing left of it
      have hp := hv.principal_le
      have hi := hv.interest_le
      have hf := hv.lateFee_le
      simp only [decide_eq_false_iff_not] at hds
      simp only [repaymentAmounts,receivable,hap,if_true,reduceCtorEq,if_false]
      unfold debt at hle hds ⊢
      split <;> omega
    · simp [announcement]

section

/-- The collateral that goes back to the borrower when the principal shrinks to `newAmount`. -/
def refund (newAmount principal collateral : Int) : Int :=
  if newAmount < principal then collateral * (principal - newAmount) / principal else 0

variable {amt principal : Int} {loan loan' : Loan}

lemma refund_le (principal) (hc : 0 ≤ loan.collateralAmount) (hw : 0 < amt) :
    refund amt principal loan.collateralAmount ≤ loan.collateralAmount := by
  unfold refund
  split
  · next hl =>
    apply Int.ediv_le_of_le_mul (by omega)
    exact mul_le_mul_of_nonneg_left (by omega) hc
  · exact hc

lemma of_returnExcessCollateral (hc : 0 ≤ loan.collateralAmount) (hp : loan.borrower ≠ d.pool)
    (hm : loan.borrower ≠ d.manager) (hl : amt < principal) (hs : 0 < principal)
    (h : returnExcessCollateral d env d.token (principal - amt) principal loan w =
    .ok (w',loan')) : ∃ b, w' = { w with bank := b } ∧ loan' = { loan with
        collateralAmount :=
          loan.collateralAmount - refund amt principal loan.collateralAmount } ∧
      Flow d d.token 0 0 (-refund amt principal loan.collateralAmount) w.bank b := by
  simp only [returnExcessCollateral,eq_ok,okOr_eq_ok] at h
  obtain ⟨_,⟨-,rfl⟩,returned,hd,h⟩ := h
  rw [refund,if_pos hl,← Money.roundDiv_floor hs hd]
  split at h
  · simp only [eq_ok,Prod.mk.injEq] at h
    obtain ⟨_,hw1,_,⟨-,rfl⟩,rfl,rfl⟩ := h
    obtain ⟨b,rfl,hv⟩ := of_transfer hw1
    exact ⟨b,rfl,rfl,.released hv hp hm⟩
  · next ho =>
    cases h
    have hn : 0 ≤ returned := by
      rw [Money.roundDiv_floor hs hd]
      exact Int.ediv_nonneg (mul_nonneg hc (by omega)) hs.le
    obtain rfl : returned = 0 := by omega
    refine ⟨w.bank,rfl,?_,.refl _ _ _⟩
    rw [sub_zero]

lemma of_movePrincipal
    (h : movePrincipal d env d.pool d.token amt principal loan w = .ok (w',loan'))
    (hc : 0 ≤ loan.collateralAmount) (hp : loan.borrower ≠ d.pool)
    (hm : loan.borrower ≠ d.manager) (hn : 0 < amt) : ∃ b, w' = { w with bank := b } ∧
      loan' = { loan with
        collateralAmount :=
          loan.collateralAmount - refund amt principal loan.collateralAmount } ∧
      Flow d d.token (max 0 (principal - amt)) (max 0 (amt - principal))
        (-refund amt principal loan.collateralAmount) w.bank b := by
  unfold movePrincipal at h
  split at h
  · simp only [eq_ok,Prod.mk.injEq] at h
    obtain ⟨_,⟨-,rfl⟩,_,-,-,w1,hw1,rfl,rfl⟩ := h
    obtain ⟨b,rfl,-,hv⟩ := of_disburse hw1
    rw [refund,if_neg (by omega)]
    refine ⟨b,rfl,?_,(Flow.paidOut hv (.inl rfl) hp hm).cast ?_ ?_ rfl⟩
    · rw [sub_zero]
    · omega
    · omega
  split at h
  · next hl =>
    simp only [eq_ok] at h
    obtain ⟨_,⟨-,rfl⟩,w1,hw1,h⟩ := h
    obtain ⟨b,rfl,hv⟩ := of_transfer hw1
    obtain ⟨b',rfl,rfl,hf⟩ := of_returnExcessCollateral hc hp hm hl (by omega) h
    refine ⟨b',rfl,rfl,((Flow.paidIn hv (.inr rfl) hp hm).trans hf).cast ?_ ?_ ?_⟩ <;> omega
  · next hl =>
    cases h
    rw [refund,if_neg hl]
    refine ⟨w.bank,rfl,?_,(Flow.refl d d.token w.bank).cast ?_ ?_ rfl⟩
    · rw [sub_zero]
    · omega
    · omega

end

lemma posting_of_refinanceLoan {amt newTerm} (hw : w.Sound d)
    (h : refinanceLoan d env id amt newTerm w = .ok w') :
    ∃ (old x x' new : Loan) (fee : Int), w.manager.loans.lookup id = some old ∧
    old.status = .Approved ∧ old.accrueInterest env = .ok x ∧
    x.accrueLateFee env w.manager.toSettings = .ok (x',fee) ∧
    Loan.Accrues old x' ∧ new.interestPaid = old.interestPaid + x'.accruedInterest ∧
    new.lateFeePaid = old.lateFeePaid + x'.accruedLateFee ∧
    (new.amount = amt ∧ 0 < amt ∧ amt ≤ old.collateralAmount ∧
    new.collateralAmount =
    old.collateralAmount - refund amt old.remaining old.collateralAmount) ∧
    Posting d id (some new)
    ⟨0,0,max 0 (old.remaining - amt),max 0 (amt - old.remaining)⟩ w w' := by
  simp only [refinanceLoan,settleAccrued,eq_ok,readLoan_eq_ok,Prod.exists] at h
  obtain ⟨-,_,-,-,old,ho,-,hap,_,-,-,hnw,-,-,_,-,-,hc,h⟩ := h
  obtain ⟨x,hn,x',fee,hf,_,⟨_,⟨-,rfl⟩,_,⟨-,rfl⟩,rfl⟩,h⟩ := h
  obtain ⟨principal,hp,_,hk,_,hl,_,_,hv,_,⟨-,rfl⟩,h⟩ := h
  obtain ⟨m,hm,rate,-,dueDate,-,rfl⟩ := h
  cases hw.token_eq hk
  cases hw.lendingPool_eq hl
  have hs := hw.loan id old ho
  obtain ⟨ha1,-,-⟩ := of_accrueInterest hs.toInRange hap hn
  have ha := ha1.trans (of_accrueLateFee (ha1.inRange hs.toInRange) hf).1
  have hr := ha.inRange hs.toInRange
  have hrm := ha.remaining
  have hnp : x'.borrower ≠ d.pool := ha.borrower ▸ hs.borrower_pool
  have hnm : x'.borrower ≠ d.manager := ha.borrower ▸ hs.borrower_manager
  obtain rfl : principal = x'.remaining := eq_of_remainingPrincipal hp
  obtain ⟨_,rfl,rfl,hfw⟩ := of_movePrincipal hv hr.collateralAmount_nonneg hnp hnm hnw
  have ht := refund_le x'.remaining hr.collateralAmount_nonneg hnw
  have hu := (LoanManager.Updates.adjust id hm).trans (.setLoan d id { x' with
      amount := amt
      collateralAmount := x'.collateralAmount - refund amt x'.remaining x'.collateralAmount
      principalPaid := 0
      interestPaid := x'.interestPaid + x'.accruedInterest
      accruedInterest := 0
      lateFeePaid := x'.lateFeePaid + x'.accruedLateFee
      accruedLateFee := 0
      interestRateBps := rate
      dueDate := dueDate
      lastInterestLedger := env.sequence
      lastLateFeeLedger := dueDate } m)
  have hst := ha.status.trans hap
  refine ⟨old,x,x',_,fee,ho,hap,hn,hf,ha,?_,?_,
    ⟨rfl,hnw,hc,?_⟩,.of_updates ho (hu.congr rfl rfl rfl rfl rfl) (.inl ha.status)
      (.approved ?_ hnp hnm hst ?_) ?_ ?_ (.refl _ _) ?_ ?_⟩
  · rw [ha.interestPaid]
  · rw [ha.lateFeePaid]
  · show x'.collateralAmount - _ = _
    rw [hrm,ha.collateralAmount]
  · exact ⟨hnw,le_refl 0,hnw.le,le_refl 0,le_refl 0,hr.interestResidual_nonneg,
      hr.interestResidual_lt,Int.sub_nonneg_of_le ht⟩
  · simpa [debt,remaining] using hnw
  · simp only [owed,hst,hap,if_true,ha.amount,add_zero]
  · refine hfw.cast ?_ ?_ ?_
    · rw [← hrm]
    · rw [← hrm]
    · show _ = x'.collateralAmount - _ - old.collateralAmount
      rw [ha.collateralAmount]
      omega
  · simp only [receivable,hst,hap,if_true]
    show 0 - 0 = _ + (amt - 0 - old.remaining)
    omega
  · simp [announcement,hst,hap]

end DukaPay
