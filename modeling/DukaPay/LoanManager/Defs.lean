import DukaPay.LendingPool.Defs

/-! The loan manager keeps the loan records and the collateral. -/
namespace DukaPay
open Contractlib

inductive LoanStatus
  | Pending
  | Approved
  | Repaid
  | Defaulted
  | Liquidated
  | Cancelled
  | Rejected
  deriving DecidableEq

structure Loan where
  borrower : Address
  amount : Int
  collateralAmount : Int
  principalPaid : Int
  interestPaid : Int
  accruedInterest : Int
  lateFeePaid : Int
  accruedLateFee : Int
  interestRateBps : Nat
  dueDate : Nat
  lastInterestLedger : Nat
  lastLateFeeLedger : Nat
  status : LoanStatus
  interestResidual : Int
  extensionCount : Nat
  termLedgers : Nat
  deriving DecidableEq

inductive LoanEvent
  | LoanRequested (loanId : Nat) (borrower : Address) (amount : Int)
  | LoanApproved (loanId : Nat) (borrower : Address) (interestRateBps termLedgers : Nat)
  | LoanApprovedByAdmin (admin : Address) (loanId : Nat) (borrower : Address)
  | LoanRefinanced (loanId : Nat) (borrower : Address) (newAmount : Int) (newTerm : Nat)
  | LoanExtended (loanId : Nat) (borrower : Address) (newDueLedger : Nat) (feeAmount : Int)
      (extensionCount : Nat)
  | LoanRepaid (borrower : Address) (loanId : Nat) (amount : Int)
  | LoanCancelled (borrower : Address) (loanId : Nat)
  | LoanRejected (loanId : Nat) (reason : String)
  | LoanDefaulted (loanId : Nat) (borrower : Address)
  | LoanPurged (loanId : Nat)
  | LoanLiquidated (loanId : Nat) (borrower liquidator : Address)
      (debtRepaid liquidatorBonus borrowerRefund : Int)
  | LateFeeCharged (loanId : Nat) (feeAmount : Int)
  | CollateralDeposited (borrower : Address) (loanId : Nat) (amount : Int)
  | CollateralReturned (borrower : Address) (loanId : Nat) (amount : Int)
  | CollateralReleased (borrower : Address) (loanId : Nat)
  | CollateralLiquidated (loanId : Nat) (amount : Int)
  | SettingUpdated (topic : String) (admin : Option Address) (first second : Int)
  | AddressUpdated (topic : String) (oldAddress newAddress : Option Address)
  | Paused (ledger : Nat)
  | ContractPaused (ledger : Nat)
  | Unpaused (ledger : Nat)
  | ContractUnpaused (ledger : Nat)

structure Settings where
  nftContract : Option Address
  lendingPool : Option Address
  token : Option Address
  admin : Option Address
  governanceContract : Option Address
  paused : Bool
  pausedAtLedger : Option Nat
  circuitBreaker : Option Address
  minScore : Option Nat
  minRepaymentAmount : Option Int
  maxLoanAmount : Option Int
  maxLoansPerBorrower : Option Nat
  interestRateBps : Option Nat
  minRateBps : Option Nat
  maxRateBps : Option Nat
  rateOracle : Option Address
  priceOracle : Option Address
  collateralToken : Option Address
  defaultTermLedgers : Option Nat
  minTermLedgers : Option Nat
  maxTermLedgers : Option Nat
  lateFeeRateBps : Option Nat
  gracePeriodLedgers : Option Nat
  defaultWindowLedgers : Option Nat
  liquidationThresholdBps : Option Nat
  liquidationBonusBps : Option Nat
  version : Option Nat
  migratedVersion : Option Nat

structure LoanManager extends Settings where
  loans : Storage Nat Loan
  loanCounter : Nat
  borrowerLoanCount : Address → Nat
  borrowerLoans : Address → List Nat
  totalOutstanding : Address → Int
  reentrancyLock : Bool
  events : List (Nat × LoanEvent)

structure Deployment where
  pool : Address
  manager : Address
  token : Address
  distinct : pool ≠ manager

structure World extends PoolWorld where
  manager : LoanManager

namespace Settings

def defaultInterestRateBps : Nat := 1200
def defaultTerm : Nat := 17280
def currentVersion : Nat := 4
def defaultLateFeeRateBps : Nat := 500
def maxLateFeeCapBps : Nat := 2500
def defaultMaxLoanAmount : Int := 50000 * Money.stroopScale
def defaultMaxLoansPerBorrower : Nat := 3
def defaultGracePeriodLedgers : Nat := 4320
def defaultDefaultWindowLedgers : Nat := defaultTerm
def defaultLiquidationThresholdBps : Nat := 15000
def defaultLiquidationBonusBps : Nat := 500
def maxLiquidationBonusBps : Nat := 2000
def minCollateralRatioBps : Nat := 10000
def nftMaxScore : Nat := 850
def defaultMinScore : Nat := 500
def defaultMinRepaymentAmount : Int := 100
def defaultMinRateBps : Nat := 1
def defaultMaxRateBps : Nat := 100000

variable (s : Settings)

def readNftContract : Res Address := expect s.nftContract "not initialized"
def readAdmin : Res Address := expect s.admin "not initialized"
def readLendingPool : Res Address := expect s.lendingPool "not initialized"

def readInterestRate : Nat :=
  let configured := s.interestRateBps.getD defaultInterestRateBps
  if configured = 0 then defaultInterestRateBps else configured

def readMinRateBps : Nat := s.minRateBps.getD defaultMinRateBps
def readMaxRateBps : Nat := s.maxRateBps.getD defaultMaxRateBps
def readDefaultTerm : Nat := s.defaultTermLedgers.getD defaultTerm

def readLateFeeRateBps : Nat :=
  min (s.lateFeeRateBps.getD defaultLateFeeRateBps) maxLateFeeCapBps

def readLiquidationThresholdBps : Nat :=
  s.liquidationThresholdBps.getD defaultLiquidationThresholdBps
def readLiquidationBonusBps : Nat :=
  s.liquidationBonusBps.getD defaultLiquidationBonusBps
def readGracePeriodLedgers : Nat :=
  s.gracePeriodLedgers.getD defaultGracePeriodLedgers
def readDefaultWindowLedgers : Nat :=
  s.defaultWindowLedgers.getD defaultDefaultWindowLedgers
def readMaxLoanAmount : Int := s.maxLoanAmount.getD defaultMaxLoanAmount
def readMaxLoansPerBorrower : Nat :=
  s.maxLoansPerBorrower.getD defaultMaxLoansPerBorrower
def readMinRepaymentAmount : Int :=
  s.minRepaymentAmount.getD defaultMinRepaymentAmount
def readMinScore : Nat := s.minScore.getD defaultMinScore

def computeInterestRate (env : Env) (borrower : Address) (amount : Int) (score : Nat)
    (s : Settings) : Res Nat :=
  match s.rateOracle with
  | none => pure s.readInterestRate
  | some oracle => do
    let oracleRate ← orFail (env.getRate oracle borrower amount score) .foreign
    pure (if oracleRate < s.readMinRateBps ∨ s.readMaxRateBps < oracleRate then s.readInterestRate
      else oracleRate)

def priceScale : Int := 10000000

def collateralValueUnits (env : Env) (collateralAmount : Int) (s : Settings) : Res Int :=
  if collateralAmount ≤ 0 then
    pure collateralAmount
  else
    match s.priceOracle,s.collateralToken with
    | some oracle,some collateralToken => do
      let price ← orFail (env.getPrice oracle collateralToken) .foreign
      if price ≤ 0 then
        pure collateralAmount
      else
        pure (((i128.checkedMul collateralAmount price).map fun v => v.tdiv priceScale).getD
          collateralAmount)
    | _,_ => pure collateralAmount

end Settings

namespace LoanManager

def publish (env : Env) (e : LoanEvent) (m : LoanManager) : LoanManager :=
  { m with events := (env.sequence,e) :: m.events }

/-- Fail when the configured breaker blocks `fnSym` of this manager; without one, go on. -/
def assertCircuitOk (d : Deployment) (env : Env) (fnSym : String) (m : LoanManager) : Res Unit :=
  match m.circuitBreaker with
  | none => pure ()
  | some breaker =>
    ensure (env.isBlocked breaker d.manager fnSym = false) (.loan .CircuitBreakerTripped)

def assertPoolNotPaused (d : Deployment) (w : World) : Res Unit :=
  match w.manager.lendingPool with
  | none => pure ()
  | some pool => do
    ensure (pool = d.pool) .foreign
    ensure (w.pool.paused = false) (.loan .PoolPaused)

def assertNftNotPaused (env : Env) (m : LoanManager) : Res Unit :=
  match m.nftContract with
  | none => pure ()
  | some _ => ensure (env.nft.isPaused = false) (.loan .NftPaused)

def requireNotPaused (d : Deployment) (env : Env) (w : World) : Res Unit := do
  ensure (w.manager.paused = false) (.loan .ContractPaused)
  assertPoolNotPaused d w
  assertNftNotPaused env w.manager
  w.manager.assertCircuitOk d env "any"

def acquireLock (m : LoanManager) : Res LoanManager := do
  ensure (m.reentrancyLock = false) (.loan .ReentrancyGuardTriggered)
  pure { m with reentrancyLock := true }

def releaseLock (m : LoanManager) : LoanManager := { m with reentrancyLock := false }

def adjustTotalOutstanding (token : Address) (delta : Int) (m : LoanManager) : Res LoanManager :=
  if delta = 0 then
    pure m
  else do
    let updated ←
      expect (i128.checkedAdd (m.totalOutstanding token) delta) "total outstanding overflow"
    ensure (0 ≤ updated) (.panic "total outstanding underflow")
    pure { m with totalOutstanding := Function.update m.totalOutstanding token updated }

def closeOutstanding (token : Address) (loan : Loan) (m : LoanManager) : Res LoanManager := do
  let delta ← expect (i128.checkedNeg loan.amount) "attempt to negate with overflow"
  m.adjustTotalOutstanding token delta

def incrementBorrowerLoanCount (borrower : Address) (m : LoanManager) : Res LoanManager := do
  let next ← expect (u32.checkedAdd (m.borrowerLoanCount borrower) 1) "borrower loan count overflow"
  pure { m with borrowerLoanCount := Function.update m.borrowerLoanCount borrower next }

def decrementBorrowerLoanCount (borrower : Address) (m : LoanManager) : LoanManager :=
  { m with
    borrowerLoanCount :=
      Function.update m.borrowerLoanCount borrower (m.borrowerLoanCount borrower - 1) }

def setLoan (loanId : Nat) (loan : Loan) (m : LoanManager) : LoanManager :=
  { m with loans := m.loans.insert loanId loan }

end LoanManager

namespace World
variable (d : Deployment) (env : Env)

def transfer (token src dst : Address) (amount : Int) (w : World) : Res World := do
  let bank ← w.bank.transfer env ⟨token,src,dst,amount,some d.manager⟩
  pure { w with bank := bank }

def transferPositive (token src dst : Address) (amount : Int)
    (w : World) : Res World :=
  if 0 < amount then w.transfer d env token src dst amount else pure w

def recordLoanYield (pool token : Address) (amount : Int)
    (w : World) : Res World := do
  ensure (pool = d.pool) .foreign
  let p ← LendingPool.recordLoanYield (env.calledBy d.manager) token amount w.pool
  pure { w with pool := p }

def recordLoanLoss (pool token : Address) (amount : Int)
    (w : World) : Res World := do
  ensure (pool = d.pool) .foreign
  let p ← LendingPool.recordLoanLoss (env.calledBy d.manager) token amount w.pool
  pure { w with pool := p }

def disburse (pool recipient token : Address) (amount : Int)
    (w : World) : Res World := do
  ensure (pool = d.pool) .foreign
  let pw ←
    LendingPool.disburse d.pool (env.calledBy d.manager) recipient token amount w.toPoolWorld
  pure { w with toPoolWorld := pw }

/-- Tell the pool what was recovered of `principal`: an excess is income, a shortfall is lost. -/
def recordPoolRecovery (token : Address) (principal recovered : Int)
    (w : World) : Res World := do
  let pool ← w.manager.readLendingPool
  if principal < recovered then do
    let excess ← expect (i128.checkedSub recovered principal) "attempt to subtract with overflow"
    w.recordLoanYield d env pool token excess
  else if recovered < principal then do
    let shortfall ← expect (i128.checkedSub principal recovered) "attempt to subtract with overflow"
    w.recordLoanLoss d env pool token shortfall
  else
    pure w

/-- Pay the collateral of a loan to `recipient`. The record is read again from storage. -/
def releaseCollateralInternal (loanId : Nat) (recipient : Address)
    (w : World) : Res World := do
  let loan ← expect (w.manager.loans.lookup loanId) "loan not found"
  let collateral := loan.collateralAmount
  if collateral ≤ 0 then
    pure w
  else do
    let m := w.manager.setLoan loanId { loan with collateralAmount := 0 }
    let token ← expect m.token "token not set"
    let w ← { w with manager := m }.transfer d env token d.manager recipient collateral
    pure
      { w with manager := w.manager.publish env (.CollateralReturned recipient loanId collateral) }

def seizeCollateralInternal (loanId : Nat) (w : World) : Res World := do
  let loan ← expect (w.manager.loans.lookup loanId) "loan not found"
  let collateral := loan.collateralAmount
  if collateral ≤ 0 then
    pure w
  else do
    let m := w.manager.setLoan loanId { loan with collateralAmount := 0 }
    let token ← expect m.token "token not set"
    let pool ← expect m.lendingPool "lending pool not set"
    let w ← { w with manager := m }.transfer d env token d.manager pool collateral
    pure { w with manager := w.manager.publish env (.CollateralLiquidated loanId collateral) }

end World

end DukaPay
