import DukaPay.LoanManager.Split

/-! The entry points that create, pay, close and remove loans, translated one by one. -/
namespace DukaPay
open Contractlib

namespace LoanManager

def maxRatioBps : Int := 10000
def lateRepaymentScorePenalty : Nat := 10
def defaultScorePenaltyPoints : Nat := 50
def stroopsPerScorePoint : Int := 100 * Money.stroopScale
def maxExtensions : Nat := 3
def extensionFeeBps : Int := 100
def i32Max : Int := 2147483647

def readLoan (loanId : Nat) (m : LoanManager) : Res Loan :=
  orFail (m.loans.lookup loanId) (.loan .LoanNotFound)

lemma readLoan_eq_ok {loanId} {m : LoanManager} {loan} :
    m.readLoan loanId = .ok loan ↔ m.loans.lookup loanId = some loan :=
  orFail_eq_ok

def defaultEnds (loan : Loan) (m : LoanManager) : Res Nat :=
  expect (u32.checkedAdd loan.dueDate m.readDefaultWindowLedgers) "default window overflow"

/-! ### Requests and approval -/

variable (d : Deployment) (env : Env)

def requestLoan (borrower : Address) (amount : Int) (term : Nat)
    (w : World) : Res (World × Nat) := do
  env.requireAuth borrower
  requireNotPaused d env w
  w.manager.assertCircuitOk d env "request_loan"
  ensure (0 < amount) (.loan .InvalidAmount)
  ensure (amount ≤ w.manager.readMaxLoanAmount) (.loan .InvalidAmount)
  ensure (term ≠ 0) (.loan .InvalidTerm)
  let _ ← orFail w.manager.nftContract (.loan .NotInitialized)
  let score := env.nft.getScore borrower
  ensure (w.manager.readMinScore ≤ score) (.loan .InsufficientScore)
  ensure (env.nft.isSeized borrower = false) (.loan .SeizedBorrower)
  ensure (w.manager.borrowerLoanCount borrower < w.manager.readMaxLoansPerBorrower)
    (.loan .MaxLoansReached)
  let loanCounter ←
    expect (u32.checkedAdd w.manager.loanCounter 1) "attempt to add with overflow"
  let interestRateBps ← w.manager.computeInterestRate env borrower amount score
  let loan : Loan :=
    { borrower := borrower
      amount := amount
      collateralAmount := 0
      principalPaid := 0
      interestPaid := 0
      accruedInterest := 0
      lateFeePaid := 0
      accruedLateFee := 0
      interestRateBps := interestRateBps
      dueDate := 0
      lastInterestLedger := 0
      lastLateFeeLedger := 0
      status := .Pending
      interestResidual := 0
      extensionCount := 0
      termLedgers := term }
  let m := { w.manager.setLoan loanCounter loan with loanCounter := loanCounter }
  -- a pending loan counts against the cap of the borrower
  let m ← m.incrementBorrowerLoanCount borrower
  let m :=
    { m with
      borrowerLoans :=
        Function.update m.borrowerLoans borrower (m.borrowerLoans borrower ++ [loanCounter]) }
  pure ({ w with manager := m.publish env (.LoanRequested loanCounter borrower amount) },
    loanCounter)

variable (loanId : Nat)

def approveLoan (w : World) : Res World := do
  let admin ← w.manager.readAdmin
  env.requireAuth admin
  requireNotPaused d env w
  w.manager.assertCircuitOk d env "approve_loan"
  let loan ← w.manager.readLoan loanId
  ensure (loan.status = .Pending) (.loan .LoanNotPending)
  let lendingPool ← expect w.manager.lendingPool "lending pool not set"
  let token ← expect w.manager.token "token not set"
  let termLedgers := w.manager.readDefaultTerm
  -- `pool_balance` of the pool
  ensure (lendingPool = d.pool) .foreign
  let poolBalance := w.bank.balance token d.pool
  let availableLiquidity :=
    (i128.checkedSub poolBalance (w.manager.totalOutstanding token)).getD 0
  ensure (loan.amount ≤ availableLiquidity) (.loan .InsufficientPoolLiquidity)
  let m ← w.manager.acquireLock
  let dueDate ← expect (u32.checkedAdd env.sequence termLedgers) "attempt to add with overflow"
  let lastLateFeeLedger ←
    expect (u32.checkedAdd dueDate m.readGracePeriodLedgers) "grace period overflow"
  let m ← m.adjustTotalOutstanding token loan.amount
  let loan :=
    { loan with
      status := .Approved
      termLedgers := termLedgers
      dueDate := dueDate
      lastInterestLedger := env.sequence
      lastLateFeeLedger := lastLateFeeLedger }
  let w := { w with manager := m.setLoan loanId loan }
  let w ← w.disburse d env lendingPool loan.borrower token loan.amount
  let m := w.manager.publish env
    (.LoanApproved loanId loan.borrower loan.interestRateBps loan.termLedgers)
  let m := m.publish env (.LoanApprovedByAdmin admin loanId loan.borrower)
  pure { w with manager := m.releaseLock }

def returnCollateral (borrower : Address) (collateral : Int) (w : World) : Res World :=
  if 0 < collateral then do
    let token ← expect w.manager.token "token not set"
    let w ← w.transfer d env token d.manager borrower collateral
    pure
      { w with manager := w.manager.publish env (.CollateralReturned borrower loanId collateral) }
  else
    pure w

def cancelLoan (borrower : Address) (loanId : Nat) (w : World) : Res World := do
  env.requireAuth borrower
  let loan ← w.manager.readLoan loanId
  ensure (loan.borrower = borrower) (.loan .BorrowerMismatch)
  ensure (loan.status = .Pending) (.loan .LoanNotPending)
  let w :=
    { w with
      manager :=
        w.manager.setLoan loanId { loan with status := .Cancelled, collateralAmount := 0 } }
  let w ← returnCollateral d env loanId borrower loan.collateralAmount w
  pure { w with manager := w.manager.publish env (.LoanCancelled borrower loanId) }

def rejectLoan (reason : String) (w : World) : Res World := do
  let admin ← w.manager.readAdmin
  env.requireAuth admin
  let loan ← w.manager.readLoan loanId
  ensure (loan.status = .Pending) (.loan .LoanNotPending)
  let w :=
    { w with
      manager := w.manager.setLoan loanId { loan with status := .Rejected, collateralAmount := 0 } }
  let w ← returnCollateral d env loanId loan.borrower loan.collateralAmount w
  pure { w with manager := w.manager.publish env (.LoanRejected loanId reason) }

def Purgable (status : LoanStatus) : Prop :=
  status = .Repaid ∨ status = .Cancelled ∨ status = .Rejected

instance (status : LoanStatus) : Decidable (Purgable status) :=
  inferInstanceAs (Decidable (_ ∨ _))

def releaseResidual (loan : Loan) (w : World) : Res World :=
  if 0 < loan.collateralAmount then w.releaseCollateralInternal d env loanId loan.borrower
  else pure w

def uncountClosed (loan : Loan) (m : LoanManager) : LoanManager :=
  if loan.status = .Cancelled ∨ loan.status = .Rejected then
    m.decrementBorrowerLoanCount loan.borrower
  else m

def purgeLoan (w : World) : Res World := do
  let admin ← w.manager.readAdmin
  env.requireAuth admin
  let loan ← w.manager.readLoan loanId
  ensure (Purgable loan.status) (.loan .LoanNotPurgable)
  let w ← releaseResidual d env loanId loan w
  let m := { w.manager with loans := w.manager.loans.erase loanId }
  pure { w with manager := (m.uncountClosed loan).publish env (.LoanPurged loanId) }

/-! ### Repayment -/

def isFullyRepaid (loan : Loan) : Bool :=
  decide (loan.principalPaid = loan.amount ∧ loan.accruedInterest = 0 ∧ loan.accruedLateFee = 0)

def forgiveDust (isRoundingDustForgiveness : Bool) (loan : Loan) : Loan × Bool :=
  if isRoundingDustForgiveness = true ∧ isFullyRepaid loan = false then
    ({ loan with
        accruedInterest := 0
        accruedLateFee := 0
        principalPaid :=
          if loan.principalPaid < loan.amount then loan.amount else loan.principalPaid },
      true)
  else
    (loan,isFullyRepaid loan)

def closeRepaid (token : Address) (completed : Bool) (loan : Loan) (m : LoanManager) :
    Res (Loan × LoanManager) :=
  if completed = true then do
    let m ← m.closeOutstanding token loan
    pure ({ loan with status := .Repaid },m.decrementBorrowerLoanCount loan.borrower)
  else
    pure (loan,m)

def recordForgiven (forgiven : Bool) (token : Address)
    (principal recovered : Int) (w : World) : Res World :=
  if forgiven = true then w.recordPoolRecovery d env token principal recovered else pure w

def releaseRepaid (completed : Bool) (borrower : Address)
    (loanId : Nat) (amount : Int) (w : World) : Res World :=
  if completed = true then do
    let w ← w.releaseCollateralInternal d env loanId borrower
    pure { w with manager := w.manager.publish env (.LoanRepaid borrower loanId amount) }
  else
    pure w

def scorePoints (amount : Int) : Int :=
  let points := amount.tdiv stroopsPerScorePoint
  if i32Max < points then i32Max else if points ≤ 0 then 0 else points

def updateScore (borrower : Address) (amount : Int) (lateCompletion : Bool)
    (m : LoanManager) : Res Unit :=
  if amount < stroopsPerScorePoint then
    pure ()
  else do
    let _ ← m.readNftContract
    if env.nft.getScore borrower = 0 then
      pure ()
    else if lateCompletion = true then
      ensure (env.nft.decreaseScore borrower lateRepaymentScorePenalty = true) .foreign
    else if 0 < scorePoints amount then
      ensure (env.nft.applyScoreDelta borrower (scorePoints amount) = true) .foreign
    else
      pure ()

def publishRepayment (completed : Bool) (borrower : Address) (loanId : Nat)
    (amount lateFeeDelta : Int) (m : LoanManager) : LoanManager :=
  let m := if 0 < lateFeeDelta then m.publish env (.LateFeeCharged loanId lateFeeDelta) else m
  if completed = true then m else m.publish env (.LoanRepaid borrower loanId amount)

def repay (borrower : Address) (loanId : Nat) (amount : Int) (w : World) : Res World := do
  env.requireAuth borrower
  requireNotPaused d env w
  w.manager.assertCircuitOk d env "repay"
  ensure (0 < amount) (.loan .InvalidAmount)
  let loan ← w.manager.readLoan loanId
  ensure (loan.borrower = borrower) (.loan .BorrowerMismatch)
  ensure (loan.status = .Approved) (.loan .LoanNotActive)
  let defaultEnds ← w.manager.defaultEnds loan
  ensure (env.sequence ≤ defaultEnds) (.loan .LoanPastDue)
  let (loan,totalDebt,lateFeeDelta) ← loan.currentTotalDebt env w.manager.toSettings
  ensure (amount ≤ totalDebt) (.loan .RepaymentExceedsDebt)
  let minRepaymentAmount := w.manager.readMinRepaymentAmount
  let isRoundingDustForgiveness := decide (totalDebt ≤ minRepaymentAmount)
  ensure (¬ (amount < totalDebt ∧ amount < minRepaymentAmount ∧ isRoundingDustForgiveness = false))
    (.panic "repayment amount below minimum")
  let token ← expect w.manager.token "token not set"
  let lendingPool ← expect w.manager.lendingPool "lending pool not set"
  let principalDueBeforePayment ← loan.remainingPrincipal
  let split ← loan.proportionalRepaymentSplit amount
  let loan ← loan.applySplit split
  let graceEnds ←
    expect (u32.checkedAdd loan.dueDate w.manager.readGracePeriodLedgers) "grace period overflow"
  let wasLate := decide (graceEnds < env.sequence)
  let (loan,completed) := forgiveDust isRoundingDustForgiveness loan
  let (loan,m) ← w.manager.closeRepaid token completed loan
  let w := { w with manager := m.setLoan loanId loan }
  let w ← w.transfer d env token borrower lendingPool amount
  let realizedIncome ←
    expect (i128.checkedAdd split.interest split.lateFee) "repayment income overflow"
  let w ← w.recordLoanYield d env lendingPool token realizedIncome
  let w ← recordForgiven d env (isRoundingDustForgiveness && decide (amount < totalDebt)) token
    principalDueBeforePayment split.principal w
  let w ← releaseRepaid d env completed loan.borrower loanId amount w
  w.manager.updateScore env borrower amount (completed && wasLate)
  pure { w with
    manager := w.manager.publishRepayment env completed borrower loanId amount lateFeeDelta }

/-! ### Collateral and liquidation -/

def depositCollateral (amount : Int) (w : World) : Res World := do
  requireNotPaused d env w
  ensure (0 < amount) (.loan .InvalidAmount)
  let loan ← w.manager.readLoan loanId
  ensure (loan.status = .Approved) (.loan .LoanNotActive)
  env.requireAuth loan.borrower
  let _ ← orFail w.manager.nftContract (.loan .NotInitialized)
  ensure (env.nft.isSeized loan.borrower = false) (.loan .SeizedBorrower)
  let token ← expect w.manager.token "token not set"
  let updatedCollateral ←
    expect (i128.checkedAdd loan.collateralAmount amount) "collateral overflow"
  let w :=
    { w with
      manager := w.manager.setLoan loanId { loan with collateralAmount := updatedCollateral } }
  let w ← w.transfer d env token loan.borrower d.manager amount
  pure { w with
    manager := w.manager.publish env (.CollateralDeposited loan.borrower loanId updatedCollateral) }

def releaseCollateral (w : World) : Res World := do
  let loan ← w.manager.readLoan loanId
  ensure (loan.status = .Repaid) (.loan .LoanNotRepaid)
  let w ← w.releaseCollateralInternal d env loanId loan.borrower
  pure { w with manager := w.manager.publish env (.CollateralReleased loan.borrower loanId) }

def isCollateralRatioBelowThreshold (collateralAmount totalDebt : Int) (thresholdBps : Nat) :
    Res Bool :=
  if totalDebt ≤ 0 then
    pure false
  else if collateralAmount ≤ 0 then
    pure true
  else do
    let lhs ← expect (i128.checkedMul collateralAmount maxRatioBps) "collateral ratio overflow"
    let rhs ← expect (i128.checkedMul totalDebt thresholdBps) "collateral ratio overflow"
    pure (decide (lhs < rhs))

def currentRatioBps (collateralAmount totalDebt : Int) : Res Int :=
  if totalDebt ≤ 0 ∨ collateralAmount ≤ 0 then
    pure 0
  else do
    let scaled ← expect (i128.checkedMul collateralAmount maxRatioBps) "collateral ratio overflow"
    let ratio ←
      okOr (Money.roundDiv scaled totalDebt .Floor) (.panic "collateral ratio overflow")
    pure (min ratio u32.hi)

def getLoan (m : LoanManager) : Res Loan := do
  let loan ← m.readLoan loanId
  let (loan,_,_) ← loan.currentTotalDebt env m.toSettings
  pure loan

def isLiquidatable (m : LoanManager) : Res Bool := do
  let loan ← m.readLoan loanId
  if loan.status ≠ .Approved then
    pure false
  else do
    let (loan,totalDebt,_) ← loan.currentTotalDebt env m.toSettings
    let collateralValue ← m.collateralValueUnits env loan.collateralAmount
    isCollateralRatioBelowThreshold collateralValue totalDebt m.readLiquidationThresholdBps

def getLoanHealth (m : LoanManager) : Res (Int × Int × Int) := do
  let loan ← m.readLoan loanId
  if loan.status ≠ .Approved then
    pure (loan.collateralAmount,0,0)
  else do
    let (loan,totalDebt,_) ← loan.currentTotalDebt env m.toSettings
    let collateralValue ← m.collateralValueUnits env loan.collateralAmount
    let ratioBps ← currentRatioBps collateralValue totalDebt
    pure (loan.collateralAmount,totalDebt,ratioBps)

def configuredBonus (collateralAmount : Int) (m : LoanManager) : Res Int := do
  let scaled ← expect (i128.checkedMul collateralAmount m.readLiquidationBonusBps)
    "liquidation bonus overflow"
  okOr (Money.roundDiv scaled maxRatioBps .Floor) (.panic "liquidation bonus overflow")

structure Payout where
  debtRepaid : Int
  liquidatorBonus : Int
  borrowerRefund : Int
  deriving Repr

def liquidationPayout (collateralAmount totalDebt bonus : Int) : Res Payout :=
  if totalDebt ≤ collateralAmount then do
    let surplus ←
      expect (i128.checkedSub collateralAmount totalDebt) "collateral surplus underflow"
    let liquidatorBonus := min bonus surplus
    let borrowerRefund ←
      expect (i128.checkedSub surplus liquidatorBonus) "borrower refund underflow"
    pure ⟨totalDebt,liquidatorBonus,borrowerRefund⟩
  else
    pure ⟨collateralAmount,0,0⟩

def liquidate (liquidator : Address) (loanId : Nat) (w : World) : Res World := do
  env.requireAuth liquidator
  requireNotPaused d env w
  let loan ← w.manager.readLoan loanId
  ensure (loan.status = .Approved) (.loan .LoanNotActive)
  let (loan,totalDebt,_) ← loan.currentTotalDebt env w.manager.toSettings
  let collateralValue ← w.manager.collateralValueUnits env loan.collateralAmount
  let below ← isCollateralRatioBelowThreshold collateralValue totalDebt
    w.manager.readLiquidationThresholdBps
  ensure (below = true) (.loan .LoanNotLiquidatable)
  let bonus ← w.manager.configuredBonus loan.collateralAmount
  let payout ← liquidationPayout loan.collateralAmount totalDebt bonus
  let principalOutstanding ← loan.remainingPrincipal
  let loan ← loan.applyDebtRecovery payout.debtRepaid
  let loan := { loan with status := .Liquidated, collateralAmount := 0 }
  let token ← expect w.manager.token "token not set"
  let m ← w.manager.closeOutstanding token loan
  let m := (m.setLoan loanId loan).decrementBorrowerLoanCount loan.borrower
  let lendingPool ← expect m.lendingPool "lending pool not set"
  let w := { w with manager := m }
  let w ← w.transferPositive d env token d.manager lendingPool payout.debtRepaid
  let w ← w.recordPoolRecovery d env token principalOutstanding payout.debtRepaid
  let w ← w.transferPositive d env token d.manager liquidator payout.liquidatorBonus
  let w ← w.transferPositive d env token d.manager loan.borrower payout.borrowerRefund
  pure { w with
    manager := w.manager.publish env
      (.LoanLiquidated loanId loan.borrower liquidator payout.debtRepaid payout.liquidatorBonus
        payout.borrowerRefund) }

/-! ### Refinancing and extension -/

def settleAccrued (loan : Loan) : Res Loan := do
  let interestPaid ← expect (i128.checkedAdd loan.interestPaid loan.accruedInterest) "overflow"
  let lateFeePaid ← expect (i128.checkedAdd loan.lateFeePaid loan.accruedLateFee) "overflow"
  pure { loan with
    interestPaid := interestPaid
    accruedInterest := 0
    lateFeePaid := lateFeePaid
    accruedLateFee := 0 }

def returnExcessCollateral (token : Address)
    (excessPrincipal remainingPrincipal : Int) (loan : Loan) (w : World) :
    Res (World × Loan) := do
  let scaled ←
    expect (i128.checkedMul loan.collateralAmount excessPrincipal) "multiplication overflow"
  let collateralToReturn ←
    okOr (Money.roundDiv scaled remainingPrincipal .Floor) (.panic "division by zero")
  if 0 < collateralToReturn then do
    let w ← w.transfer d env token d.manager loan.borrower collateralToReturn
    let collateralAmount ←
      expect (i128.checkedSub loan.collateralAmount collateralToReturn) "underflow"
    pure (w,{ loan with collateralAmount := collateralAmount })
  else
    pure (w,loan)

def movePrincipal (lendingPool token : Address)
    (newAmount remainingPrincipal : Int) (loan : Loan) (w : World) : Res (World × Loan) :=
  if remainingPrincipal < newAmount then do
    let additional ← expect (i128.checkedSub newAmount remainingPrincipal) "underflow"
    let poolBalance := w.bank.balance token lendingPool
    let outstandingAfterExcludingCurrent ←
      expect (i128.checkedSub (w.manager.totalOutstanding token) loan.amount)
        "total outstanding underflow"
    let availableLiquidity :=
      (i128.checkedSub poolBalance outstandingAfterExcludingCurrent).getD 0
    ensure (additional ≤ availableLiquidity) (.loan .InsufficientPoolLiquidity)
    let w ← w.disburse d env lendingPool loan.borrower token additional
    pure (w,loan)
  else if newAmount < remainingPrincipal then do
    let excessPrincipal ← expect (i128.checkedSub remainingPrincipal newAmount) "underflow"
    let w ← w.transfer d env token loan.borrower lendingPool excessPrincipal
    returnExcessCollateral d env token excessPrincipal remainingPrincipal loan w
  else
    pure (w,loan)

def refinanceLoan (newAmount : Int) (newTerm : Nat) (w : World) : Res World := do
  requireNotPaused d env w
  let admin ← w.manager.readAdmin
  env.requireAuth admin
  let loan ← w.manager.readLoan loanId
  env.requireAuth loan.borrower
  ensure (loan.status = .Approved) (.loan .LoanNotActive)
  let defaultEnds ← w.manager.defaultEnds loan
  ensure (env.sequence ≤ defaultEnds) (.loan .LoanPastDue)
  ensure (0 < newAmount) (.loan .InvalidAmount)
  ensure (newAmount ≤ w.manager.readMaxLoanAmount) (.loan .InvalidAmount)
  ensure (w.manager.minTermLedgers.getD 0 ≤ newTerm ∧
    newTerm ≤ w.manager.maxTermLedgers.getD u32.hi) (.loan .InvalidTerm)
  let _ ← orFail w.manager.nftContract (.loan .NotInitialized)
  let currentScore := env.nft.getScore loan.borrower
  ensure (w.manager.readMinScore ≤ currentScore) (.loan .InsufficientScore)
  ensure (newAmount ≤ loan.collateralAmount) (.loan .InsufficientCollateral)
  let loan ← loan.accrueInterest env
  let (loan,_) ← loan.accrueLateFee env w.manager.toSettings
  let loan ← settleAccrued loan
  let remainingPrincipal ← loan.remainingPrincipal
  let token ← expect w.manager.token "token not set"
  let lendingPool ← expect w.manager.lendingPool "lending pool not set"
  let (w,loan) ← movePrincipal d env lendingPool token newAmount remainingPrincipal loan w
  let outstandingDelta ←
    expect (i128.checkedSub newAmount loan.amount) "outstanding delta overflow"
  let m ← w.manager.adjustTotalOutstanding token outstandingDelta
  let interestRateBps ← m.computeInterestRate env loan.borrower newAmount currentScore
  let dueDate ← expect (u32.checkedAdd env.sequence newTerm) "attempt to add with overflow"
  let loan :=
    { loan with
      amount := newAmount
      principalPaid := 0
      interestRateBps := interestRateBps
      lastInterestLedger := env.sequence
      dueDate := dueDate
      lastLateFeeLedger := dueDate }
  let m := m.setLoan loanId loan
  pure { w with manager := m.publish env (.LoanRefinanced loanId loan.borrower newAmount newTerm) }

def extensionFee (remainingPrincipal : Int) : Res Int := do
  let scaled ←
    expect (i128.checkedMul remainingPrincipal extensionFeeBps) "extension fee overflow"
  okOr (Money.roundDiv scaled 10000 .Floor) (.panic "extension fee overflow")

def collectExtensionFee (borrower : Address) (fee : Int) (w : World) : Res World :=
  if 0 < fee then do
    let token ← expect w.manager.token "token not set"
    let lendingPool ← expect w.manager.lendingPool "lending pool not set"
    let w ← w.transfer d env token borrower lendingPool fee
    w.recordLoanYield d env lendingPool token fee
  else
    pure w

def extendLoan (borrower : Address) (loanId extraLedgers : Nat) (w : World) : Res World := do
  env.requireAuth borrower
  requireNotPaused d env w
  ensure (extraLedgers ≠ 0) (.loan .InvalidTerm)
  let loan ← w.manager.readLoan loanId
  ensure (loan.borrower = borrower) (.loan .BorrowerMismatch)
  ensure (loan.status = .Approved) (.loan .LoanNotActive)
  let defaultEnds ← w.manager.defaultEnds loan
  ensure (env.sequence ≤ defaultEnds) (.loan .LoanPastDue)
  ensure (loan.extensionCount < maxExtensions) (.loan .InvalidConfiguration)
  let remainingPrincipal ← loan.remainingPrincipal
  let fee ← extensionFee remainingPrincipal
  let w ← collectExtensionFee d env borrower fee w
  let newDueDate ← expect (u32.checkedAdd loan.dueDate extraLedgers) "due date overflow"
  let extensionCount ← expect (u32.checkedAdd loan.extensionCount 1) "extension count overflow"
  let m := w.manager.setLoan loanId
    { loan with dueDate := newDueDate, extensionCount := extensionCount }
  pure { w with
    manager := m.publish env (.LoanExtended loanId borrower newDueDate fee extensionCount) }

/-! ### Defaults -/

def markDefaulted (loan : Loan) (w : World) : Res World := do
  let principalOutstanding ← loan.remainingPrincipal
  let collateralRecovered := loan.collateralAmount
  let loan := { loan with status := .Defaulted }
  let token ← expect w.manager.token "token not set"
  let m ← w.manager.closeOutstanding token loan
  let m := (m.setLoan loanId loan).decrementBorrowerLoanCount loan.borrower
  let w ← { w with manager := m }.seizeCollateralInternal d env loanId
  let w ← w.recordPoolRecovery d env token principalOutstanding collateralRecovered
  let _ ← w.manager.readNftContract
  ensure (env.nft.decreaseScore loan.borrower defaultScorePenaltyPoints = true) .foreign
  ensure (env.nft.recordDefault loan.borrower = true) .foreign
  pure { w with manager := w.manager.publish env (.LoanDefaulted loanId loan.borrower) }

def checkDefault (w : World) : Res World := do
  let admin ← w.manager.readAdmin
  env.requireAuth admin
  requireNotPaused d env w
  let loan ← w.manager.readLoan loanId
  ensure (loan.status = .Approved) (.loan .LoanNotActive)
  let defaultEligibleAfter ← w.manager.defaultEnds loan
  ensure (defaultEligibleAfter < env.sequence) (.loan .LoanNotPastDue)
  markDefaulted d env loanId loan w

/-- One round of `check_defaults`: a loan that is not there, not approved or not past due is
skipped. -/
def checkDefaultsStep (acc : World × Nat) (loanId : Nat) : Res (World × Nat) :=
  match acc.1.manager.loans.lookup loanId with
  | none => pure acc
  | some loan =>
    if loan.status ≠ .Approved then
      pure acc
    else do
      let defaultEligibleAfter ← acc.1.manager.defaultEnds loan
      if env.sequence ≤ defaultEligibleAfter then
        pure acc
      else do
        let w ← markDefaulted d env loanId loan acc.1
        let defaultedCount ← expect (u32.checkedAdd acc.2 1) "defaulted count overflow"
        pure (w,defaultedCount)

def checkDefaults (loanIds : List Nat) (w : World) : Res (World × Nat) := do
  let admin ← w.manager.readAdmin
  env.requireAuth admin
  requireNotPaused d env w
  loanIds.foldlM (checkDefaultsStep d env) (w,0)

end LoanManager

end DukaPay
