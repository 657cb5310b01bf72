import DukaPay.Contractlib.Storage
import DukaPay.Money
import DukaPay.Soroban

/-! Liquidity providers deposit a token and receive shares. -/
namespace DukaPay
open Contractlib

inductive PoolEvent
  | Deposit (provider token : Address) (amount sharesMinted : Int)
  | Withdraw (provider token : Address) (amount sharesBurned : Int)
  | YieldDistributed (token : Address) (amount : Int)
  | DepositCapUpdated (token : Address) (oldCap newCap : Int)
  | PoolPaused
  | PoolUnpaused
  | PoolCircuitBreakerSet (breaker : Option Address)
  | WithdrawalCooldownUpdated (oldCooldown newCooldown : Nat)
  | AdminProposed (currentAdmin proposedAdmin : Address)
  | AdminTransferred (via : String) (previousAdmin newAdmin : Address)
  | PriceUpdated (token : Address) (ledgerSeq : Nat) (totalManagedAssets totalShares : Int)

structure Books where
  totalShares : Address → Int
  shares : Storage (Address × Address) Int
  depositTimestamp : Storage (Address × Address) Nat
  totalDeposits : Address → Int
  totalOutstanding : Address → Int
  /-- token → assets behind the shares; the only input of the exchange rate besides `totalShares` -/
  totalManagedAssets : Address → Int
  depositorCount : Address → Nat
  totalYieldDistributed : Address → Int

structure LendingPool extends Books where
  admin : Option Address
  proposedAdmin : Option Address
  paused : Bool
  circuitBreaker : Option Address
  loanManager : Option Address
  withdrawalCooldown : Option Nat
  maxPoolSize : Address → Int
  reentrancyLock : Bool
  callDepth : Nat
  events : List (Nat × PoolEvent)

structure PoolWorld where
  pool : LendingPool
  bank : Bank

def Books.readShares (b : Books) (provider token : Address) : Int :=
  (b.shares.lookup (provider,token)).getD 0

namespace LendingPool

def defaultWithdrawalCooldown : Nat := 1440

def maxWithdrawalCooldownLedgers : Nat := 17280 * 30

def virtualShares : Int := 1000

def virtualAssets : Int := 1000

variable (env : Env)

def publish (e : PoolEvent) (p : LendingPool) : LendingPool :=
  { p with events := (env.sequence,e) :: p.events }

/-! ### Guards -/

variable (p : LendingPool)

def readAdmin : Res Address := expect p.admin "not initialized"

def readWithdrawalCooldown : Nat :=
  p.withdrawalCooldown.getD defaultWithdrawalCooldown

def assertNotPaused : Res Unit :=
  ensure (p.paused = false) (.pool .ContractPaused)

variable (self : Address)

/-- Fail when the configured breaker blocks `fnSym` of this pool; without one, go on. -/
def assertCircuitOk (env : Env) (fnSym : String) (p : LendingPool) : Res Unit :=
  match p.circuitBreaker with
  | none => pure ()
  | some breaker => ensure (env.isBlocked breaker self fnSym = false) (.pool .CircuitBreakerTripped)

def acquireLock : Res LendingPool := do
  ensure (p.reentrancyLock = false) (.pool .ReentrancyGuardTriggered)
  ensure (p.callDepth < 3) (.pool .CallDepthExceeded)
  pure { p with reentrancyLock := true, callDepth := p.callDepth + 1 }

def releaseLock : LendingPool :=
  match p.callDepth with
  | 0 => p
  | next + 1 =>
    { p with
      callDepth := next
      reentrancyLock := if next = 0 then false else p.reentrancyLock }

def assertWithdrawalCooldownElapsed (provider token : Address) (p : LendingPool) : Res Unit :=
  if p.readWithdrawalCooldown = 0 then
    pure ()
  else
    match p.depositTimestamp.lookup (provider,token) with
    | none => pure ()
    | some depositLedger =>
      ensure (u32.saturatingAdd depositLedger p.readWithdrawalCooldown ≤ env.sequence)
        (.panic "withdrawal_cooldown_active")

def requireLoanManager (p : LendingPool) : Res Unit := do
  let loanManager ← expect p.loanManager "unauthorized loan manager"
  env.requireAuth loanManager

/-! ### Exchange rate -/

def calcSharesToMint (amount totalManagedAssetsBefore curTotalShares : Int) : Res Int := do
  let sharesNum ← expect (i128.checkedAdd curTotalShares virtualShares) "virtual shares overflow"
  let assetsDen ←
    expect (i128.checkedAdd totalManagedAssetsBefore virtualAssets) "virtual assets overflow"
  let numerator ← expect (i128.checkedMul amount sharesNum) "share mint overflow"
  okOr (Money.roundDiv numerator assetsDen .Floor) (.panic "share mint overflow")

def calcAssetsToRedeem (shares totalManagedAssets curTotalShares : Int) : Res Int := do
  let assetsNum ←
    expect (i128.checkedAdd totalManagedAssets virtualAssets) "virtual assets overflow"
  let sharesDen ← expect (i128.checkedAdd curTotalShares virtualShares) "virtual shares overflow"
  let numerator ← expect (i128.checkedMul shares assetsNum) "share redeem overflow"
  okOr (Money.roundDiv numerator sharesDen .Floor) (.panic "share redeem overflow")

/-! ### Deposits -/

variable (token : Address)

def assertUnderMaxPoolSize (amount : Int) (p : LendingPool) : Res Unit :=
  if 0 < p.maxPoolSize token then do
    let total ← expect (i128.checkedAdd (p.totalDeposits token) amount) "overflow"
    ensure (total ≤ p.maxPoolSize token) (.pool .PoolSizeExceeded)
  else
    pure ()

def countDepositor (provider token : Address) (p : LendingPool) : Res LendingPool :=
  if p.readShares provider token = 0 then do
    let count ← expect (u32.checkedAdd (p.depositorCount token) 1) "attempt to add with overflow"
    pure { p with depositorCount := Function.update p.depositorCount token count }
  else
    pure p

def deposit (env : Env) (provider token : Address) (amount minSharesOut : Int)
    (w : PoolWorld) : Res PoolWorld := do
  env.requireAuth provider
  w.pool.assertNotPaused
  w.pool.assertCircuitOk self env "deposit"
  let p ← w.pool.acquireLock
  ensure (0 < amount) (.pool .InvalidAmount)
  ensure (0 ≤ minSharesOut) (.pool .InvalidAmount)
  p.assertUnderMaxPoolSize token amount
  -- the price before the deposit
  let totalManagedBefore := p.totalManagedAssets token
  let curTotalShares := p.totalShares token
  let sharesToMint ← calcSharesToMint amount totalManagedBefore curTotalShares
  ensure (0 < sharesToMint) (.pool .ZeroShares)
  ensure (minSharesOut ≤ sharesToMint) (.pool .MinSharesNotMet)
  let existingShares := p.readShares provider token
  let p ← p.countDepositor provider token
  let newShares ← expect (i128.checkedAdd existingShares sharesToMint) "shares overflow"
  let newTotalShares ← expect (i128.checkedAdd curTotalShares sharesToMint) "total shares overflow"
  let newTotalDeposits ←
    expect (i128.checkedAdd (p.totalDeposits token) amount) "total deposits overflow"
  let newTotalManaged ←
    expect (i128.checkedAdd totalManagedBefore amount) "total managed assets overflow"
  let p :=
    { p with
      shares := p.shares.insert (provider,token) newShares
      depositTimestamp := p.depositTimestamp.insert (provider,token) env.sequence
      totalShares := Function.update p.totalShares token newTotalShares
      totalDeposits := Function.update p.totalDeposits token newTotalDeposits
      totalManagedAssets := Function.update p.totalManagedAssets token newTotalManaged }
  let bank ← w.bank.transfer env ⟨token,provider,self,amount,some self⟩
  let p := p.publish env (.PriceUpdated token env.sequence newTotalManaged newTotalShares)
  let p := p.publish env (.Deposit provider token amount sharesToMint)
  pure ⟨p.releaseLock,bank⟩

/-! ### Redemptions -/

/-- Leave the provider with `remaining` shares; a provider without shares is no depositor. -/
def setRemainingShares (provider token : Address) (remaining : Int) (p : LendingPool) :
    LendingPool :=
  if remaining = 0 then
    { p with
      shares := p.shares.erase (provider,token)
      depositTimestamp := p.depositTimestamp.erase (provider,token)
      depositorCount := Function.update p.depositorCount token (p.depositorCount token - 1) }
  else
    { p with shares := p.shares.insert (provider,token) remaining }

def redeemShares (env : Env) (provider token : Address)
    (shares minAssetsOut : Int) (w : PoolWorld) : Res PoolWorld := do
  ensure (0 < shares) (.pool .InvalidAmount)
  ensure (0 ≤ minAssetsOut) (.pool .InvalidAmount)
  let curShares := w.pool.readShares provider token
  ensure (shares ≤ curShares) (.pool .InsufficientBalance)
  let curTotalShares := w.pool.totalShares token
  let totalManagedBefore := w.pool.totalManagedAssets token
  let assetsToReturn ← calcAssetsToRedeem shares totalManagedBefore curTotalShares
  ensure (0 < assetsToReturn) (.pool .ZeroShares)
  ensure (minAssetsOut ≤ assetsToReturn) (.pool .MinAssetsNotMet)
  -- the payout is priced from the tracked assets but bounded by the live balance
  ensure (assetsToReturn ≤ w.bank.balance token self) (.pool .InsufficientLiquidity)
  let remaining ← expect (i128.checkedSub curShares shares) "share underflow"
  let p := w.pool.setRemainingShares provider token remaining
  let newTotalShares ← expect (i128.checkedSub curTotalShares shares) "total shares underflow"
  let newTotalDeposits := i128.saturatingSub (p.totalDeposits token) assetsToReturn
  let newTotalManaged ←
    expect (i128.checkedSub totalManagedBefore assetsToReturn) "total managed assets underflow"
  let p :=
    { p with
      totalShares := Function.update p.totalShares token newTotalShares
      totalDeposits := Function.update p.totalDeposits token newTotalDeposits
      totalManagedAssets := Function.update p.totalManagedAssets token newTotalManaged }
  let bank ← w.bank.transfer env ⟨token,self,provider,assetsToReturn,some self⟩
  let p := p.publish env (.PriceUpdated token env.sequence newTotalManaged newTotalShares)
  let p := p.publish env (.Withdraw provider token assetsToReturn shares)
  pure ⟨p,bank⟩

def withdraw (env : Env) (provider token : Address) (shares minAssetsOut : Int)
    (w : PoolWorld) : Res PoolWorld := do
  env.requireAuth provider
  w.pool.assertNotPaused
  w.pool.assertCircuitOk self env "withdraw"
  w.pool.assertWithdrawalCooldownElapsed env provider token
  let p ← w.pool.acquireLock
  let w ← redeemShares self env provider token shares minAssetsOut ⟨p,w.bank⟩
  pure ⟨w.pool.releaseLock,w.bank⟩

def emergencyWithdraw (env : Env) (provider token : Address)
    (shares minAssetsOut : Int) (w : PoolWorld) : Res PoolWorld := do
  env.requireAuth provider
  w.pool.assertCircuitOk self env "withdraw"
  let p ← w.pool.acquireLock
  let w ← redeemShares self env provider token shares minAssetsOut ⟨p,w.bank⟩
  pure ⟨w.pool.releaseLock,w.bank⟩

/-! ### Yield and losses -/

def yieldDistributed (amount : Int) (p : LendingPool) : Res LendingPool :=
  if 0 < amount then do
    let total ← expect (i128.checkedAdd (p.totalYieldDistributed token) amount)
      "total yield distributed overflow"
    let p := { p with totalYieldDistributed := Function.update p.totalYieldDistributed token total }
    pure (p.publish env (.YieldDistributed token amount))
  else
    pure (p.publish env (.YieldDistributed token amount))

def distributeYield (env : Env) («from» token : Address) (amount : Int)
    (w : PoolWorld) : Res PoolWorld := do
  env.requireAuth «from»
  w.pool.assertNotPaused
  w.pool.assertCircuitOk self env "distribute_yield"
  let p ← w.pool.acquireLock
  ensure (0 < amount) (.pool .InvalidAmount)
  let updated ←
    expect (i128.checkedAdd (p.totalManagedAssets token) amount) "total managed assets overflow"
  let p := { p with totalManagedAssets := Function.update p.totalManagedAssets token updated }
  let bank ← w.bank.transfer env ⟨token,«from»,self,amount,some self⟩
  let p ← p.yieldDistributed env token amount
  let p := p.publish env (.PriceUpdated token env.sequence updated (p.totalShares token))
  pure ⟨p.releaseLock,bank⟩

def recordLoanYield (amount : Int) (p : LendingPool) : Res LendingPool := do
  p.requireLoanManager env
  ensure (0 ≤ amount) (.panic "invalid loan yield")
  if amount = 0 then
    pure p
  else do
    let updated ←
      expect (i128.checkedAdd (p.totalManagedAssets token) amount) "total managed assets overflow"
    let p := { p with totalManagedAssets := Function.update p.totalManagedAssets token updated }
    let p ← p.yieldDistributed env token amount
    pure (p.publish env (.PriceUpdated token env.sequence updated (p.totalShares token)))

def recordLoanLoss (amount : Int) (p : LendingPool) : Res LendingPool := do
  p.requireLoanManager env
  ensure (0 ≤ amount) (.panic "invalid loan loss")
  if amount = 0 then
    pure p
  else do
    let updated ← expect
      ((i128.checkedSub (p.totalManagedAssets token) amount).filter
        fun assets => decide (0 ≤ assets))
      "loan loss exceeds managed assets"
    let p := { p with totalManagedAssets := Function.update p.totalManagedAssets token updated }
    pure (p.publish env (.PriceUpdated token env.sequence updated (p.totalShares token)))

def disburse (env : Env) (recipient token : Address) (amount : Int)
    (w : PoolWorld) : Res PoolWorld := do
  let loanManager ← orFail w.pool.loanManager (.pool .Unauthorized)
  env.requireAuth loanManager
  w.pool.assertNotPaused
  w.pool.assertCircuitOk self env "disburse"
  ensure (0 < amount) (.pool .InvalidAmount)
  ensure (amount ≤ w.bank.balance token self) (.pool .InsufficientLiquidity)
  let bank ← w.bank.transfer env ⟨token,self,recipient,amount,some self⟩
  pure { w with bank := bank }

/-! ### Administration -/

def empty : LendingPool where
  admin := none
  proposedAdmin := none
  paused := false
  circuitBreaker := none
  loanManager := none
  withdrawalCooldown := none
  maxPoolSize := fun _ => 0
  totalShares := fun _ => 0
  shares := ∅
  depositTimestamp := ∅
  totalDeposits := fun _ => 0
  totalOutstanding := fun _ => 0
  totalManagedAssets := fun _ => 0
  depositorCount := fun _ => 0
  totalYieldDistributed := fun _ => 0
  reentrancyLock := false
  callDepth := 0
  events := []

def initializePool (admin : Address) (p : LendingPool) : Res LendingPool := do
  ensure (p.admin = none) (.pool .AlreadyInitialized)
  pure { p with
    admin := some admin
    paused := false
    circuitBreaker := none
    withdrawalCooldown := some defaultWithdrawalCooldown }

def setMaxPoolSize (max : Int) (p : LendingPool) : Res LendingPool := do
  let admin ← p.readAdmin
  env.requireAuth admin
  ensure (0 ≤ max) (.pool .InvalidMaxPoolSize)
  let oldMax := p.maxPoolSize token
  let p := { p with maxPoolSize := Function.update p.maxPoolSize token max }
  pure (p.publish env (.DepositCapUpdated token oldMax max))

def setWithdrawalCooldown (ledgers : Nat) (p : LendingPool) : Res LendingPool := do
  let admin ← p.readAdmin
  env.requireAuth admin
  ensure (ledgers ≤ maxWithdrawalCooldownLedgers) (.pool .CooldownTooLong)
  let oldCooldown := p.readWithdrawalCooldown
  let p := { p with withdrawalCooldown := some ledgers }
  pure (p.publish env (.WithdrawalCooldownUpdated oldCooldown ledgers))

def proposeAdmin (newAdmin : Address) (p : LendingPool) : Res LendingPool := do
  let currentAdmin ← p.readAdmin
  env.requireAuth currentAdmin
  let p := { p with proposedAdmin := some newAdmin }
  pure (p.publish env (.AdminProposed currentAdmin newAdmin))

def acceptAdmin (p : LendingPool) : Res LendingPool := do
  let previousAdmin ← p.readAdmin
  let proposedAdmin ← orFail p.proposedAdmin (.pool .NoProposedAdmin)
  env.requireAuth proposedAdmin
  let p := { p with admin := some proposedAdmin, proposedAdmin := none }
  pure (p.publish env (.AdminTransferred "accept" previousAdmin proposedAdmin))

def setAdmin (newAdmin : Address) (p : LendingPool) : Res LendingPool := do
  let currentAdmin ← p.readAdmin
  env.requireAuth currentAdmin
  let p := { p with admin := some newAdmin, proposedAdmin := none }
  pure (p.publish env (.AdminTransferred "govern" currentAdmin newAdmin))

def pause (p : LendingPool) : Res LendingPool := do
  let admin ← p.readAdmin
  env.requireAuth admin
  pure ({ p with paused := true }.publish env .PoolPaused)

def unpause (p : LendingPool) : Res LendingPool := do
  let admin ← p.readAdmin
  env.requireAuth admin
  pure ({ p with paused := false }.publish env .PoolUnpaused)

def setCircuitBreaker (breaker : Option Address) (p : LendingPool) : Res LendingPool := do
  let admin ← p.readAdmin
  env.requireAuth admin
  pure ({ p with circuitBreaker := breaker }.publish env (.PoolCircuitBreakerSet breaker))

def setLoanManager (loanManager : Address) (p : LendingPool) : Res LendingPool := do
  let admin ← p.readAdmin
  env.requireAuth admin
  pure { p with loanManager := some loanManager }

def adjustOutstanding (env : Env) (token : Address) (delta : Int)
    (p : LendingPool) : Res LendingPool := do
  let admin ← p.readAdmin
  env.requireAuth admin
  p.assertCircuitOk self env "adjust_outstanding"
  if delta = 0 then
    pure p
  else do
    let updated ←
      expect (i128.checkedAdd (p.totalOutstanding token) delta) "total outstanding overflow"
    ensure (0 ≤ updated) (.panic "total outstanding underflow")
    pure { p with totalOutstanding := Function.update p.totalOutstanding token updated }

end LendingPool

/-! ### The pool as a system of its own -/

inductive PoolCall
  | initializePool (admin : Address)
  | deposit (provider token : Address) (amount minSharesOut : Int)
  | withdraw (provider token : Address) (shares minAssetsOut : Int)
  | emergencyWithdraw (provider token : Address) (shares minAssetsOut : Int)
  | distributeYield («from» token : Address) (amount : Int)
  | recordLoanYield (token : Address) (amount : Int)
  | recordLoanLoss (token : Address) (amount : Int)
  | disburse (recipient token : Address) (amount : Int)
  | setMaxPoolSize (token : Address) (max : Int)
  | setWithdrawalCooldown (ledgers : Nat)
  | proposeAdmin (newAdmin : Address)
  | acceptAdmin
  | setAdmin (newAdmin : Address)
  | pause
  | unpause
  | setCircuitBreaker (breaker : Option Address)
  | setLoanManager (loanManager : Address)
  | adjustOutstanding (token : Address) (delta : Int)
  | transfer (token src dst : Address) (amount : Int)

namespace PoolCall

def exec (self : Address) (env : Env) (w : PoolWorld) : PoolCall → Res PoolWorld
  | .initializePool admin => do
    return { w with pool := ← LendingPool.initializePool admin w.pool }
  | .deposit provider token amount minSharesOut =>
    LendingPool.deposit self env provider token amount minSharesOut w
  | .withdraw provider token shares minAssetsOut =>
    LendingPool.withdraw self env provider token shares minAssetsOut w
  | .emergencyWithdraw provider token shares minAssetsOut =>
    LendingPool.emergencyWithdraw self env provider token shares minAssetsOut w
  | .distributeYield «from» token amount =>
    LendingPool.distributeYield self env «from» token amount w
  | .recordLoanYield token amount => do
    return { w with pool := ← LendingPool.recordLoanYield env token amount w.pool }
  | .recordLoanLoss token amount => do
    return { w with pool := ← LendingPool.recordLoanLoss env token amount w.pool }
  | .disburse recipient token amount => LendingPool.disburse self env recipient token amount w
  | .setMaxPoolSize token max => do
    return { w with pool := ← LendingPool.setMaxPoolSize env token max w.pool }
  | .setWithdrawalCooldown ledgers => do
    return { w with pool := ← LendingPool.setWithdrawalCooldown env ledgers w.pool }
  | .proposeAdmin newAdmin => do
    return { w with pool := ← LendingPool.proposeAdmin env newAdmin w.pool }
  | .acceptAdmin => do return { w with pool := ← LendingPool.acceptAdmin env w.pool }
  | .setAdmin newAdmin => do
    return { w with pool := ← LendingPool.setAdmin env newAdmin w.pool }
  | .pause => do return { w with pool := ← LendingPool.pause env w.pool }
  | .unpause => do return { w with pool := ← LendingPool.unpause env w.pool }
  | .setCircuitBreaker breaker => do
    return { w with pool := ← LendingPool.setCircuitBreaker env breaker w.pool }
  | .setLoanManager loanManager => do
    return { w with pool := ← LendingPool.setLoanManager env loanManager w.pool }
  | .adjustOutstanding token delta => do
    return { w with pool := ← LendingPool.adjustOutstanding self env token delta w.pool }
  | .transfer token src dst amount => do
    return { w with bank := ← w.bank.transfer env ⟨token,src,dst,amount,env.invoker⟩ }

end PoolCall

end DukaPay
