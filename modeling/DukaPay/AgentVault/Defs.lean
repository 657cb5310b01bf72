import DukaPay.Contractlib.Storage
import DukaPay.Contractlib.Transaction
import DukaPay.Money
import DukaPay.Soroban

/-! The vault holds the collateral of the agents and tracks the float issued against it. -/
namespace DukaPay
open Contractlib

structure Vault where
  collateral : Int
  float : Int
  haircutBps : Nat
  lastSettled : Nat
  deriving DecidableEq

structure VaultParams where
  maxHaircutBps : Nat
  minCollateral : Int
  deriving DecidableEq

inductive VaultEvent
  | CollateralDeposited (agent : Address) (amount newCollateral : Int)
  | CollateralWithdrawn (agent : Address) (amount newCollateral : Int)
  | FloatMinted (agent : Address) (amount newFloat : Int)
  | FloatBurned (agent : Address) (amount newFloat : Int)
  | FloatTransferred («from» «to» : Address) (amount : Int)
  | VaultSettled (agent : Address) (delta newFloat : Int)
  | HaircutUpdated (agent : Address) (old new : Nat)
  | InvariantChecked (agent : Address) (holds : Bool) (float maxAllowed : Int)

structure AgentVault where
  owner : Option Address
  operator : Option Address
  token : Option Address
  params : Option VaultParams
  circuitBreaker : Option Address
  vaults : Storage Address Vault
  reentrancyLock : Bool
  events : List VaultEvent

structure VaultWorld where
  vault : AgentVault
  bank : Bank

namespace AgentVault

def bps : Nat := 10000

def batchMax : Nat := 100

def empty : AgentVault where
  owner := none
  operator := none
  token := none
  params := none
  circuitBreaker := none
  vaults := ∅
  reentrancyLock := false
  events := []

def noVault : Vault := ⟨0,0,0,0⟩

def publish (e : VaultEvent) (s : AgentVault) : AgentVault := { s with events := e :: s.events }

def readToken (s : AgentVault) : Res Address := orFail s.token (.vault .NotInitialized)

def readParams (s : AgentVault) : Res VaultParams := orFail s.params (.vault .NotInitialized)

def requireOperator (env : TimedEnv) (s : AgentVault) : Res Unit := do
  let operator ← orFail s.operator (.vault .NotInitialized)
  env.requireAuth operator

variable (self : Address)
variable (env : TimedEnv)

/-- Fail when the configured breaker blocks `fnSym` of this vault; without one, go on. -/
def assertCircuitOk (fnSym : String) (s : AgentVault) : Res Unit :=
  match s.circuitBreaker with
  | none => pure ()
  | some breaker =>
    ensure (env.isBlocked breaker self fnSym = false) (.vault .CircuitBreakerTripped)

def acquireLock (s : AgentVault) : Res AgentVault := do
  ensure (s.reentrancyLock = false) (.panic "reentrancy guard triggered")
  pure { s with reentrancyLock := true }

def releaseLock (s : AgentVault) : AgentVault := { s with reentrancyLock := false }

def readVault (agent : Address) (s : AgentVault) : Vault := (s.vaults.lookup agent).getD noVault

def writeVault (agent : Address) (vault : Vault) (s : AgentVault) : AgentVault :=
  { s with vaults := s.vaults.insert agent vault }

/-- The float that `collateral` may back; the greatest `i128` when the product overflows. -/
def maxFloatOf (collateral : Int) (haircutBps : Nat) : Int :=
  match i128.checkedMul collateral (min haircutBps bps) with
  | some v => v.tdiv bps
  | none => i128.hi

def debit (balance amount : Int) (e : VaultError) : Res Int :=
  orFail ((i128.checkedSub balance amount).filter fun remaining => decide (0 ≤ remaining))
    (.vault e)

/-! ### Lifecycle -/

def init (owner operator token : Address) (maxHaircutBps : Nat) (minCollateral : Int)
    (s : AgentVault) : Res AgentVault := do
  ensure (s.owner = none) (.vault .AlreadyInitialized)
  ensure (¬ (maxHaircutBps = 0 ∨ 10000 < maxHaircutBps)) (.vault .InvalidParams)
  ensure (0 ≤ minCollateral) (.vault .InvalidParams)
  pure { s with
    owner := some owner
    operator := some operator
    token := some token
    params := some ⟨maxHaircutBps,minCollateral⟩ }

/-! ### Collateral -/

def haircutAtDeposit (vault : Vault) (s : AgentVault) : Res Nat :=
  if vault.haircutBps = 0 then do
    let params ← s.readParams
    pure params.maxHaircutBps
  else
    pure vault.haircutBps

def depositCollateral (agent : Address) (amount : Int) (w : VaultWorld) : Res VaultWorld := do
  env.requireAuth agent
  w.vault.assertCircuitOk self env "deposit_collateral"
  let s ← w.vault.acquireLock
  ensure (0 < amount) (.vault .InvalidAmount)
  let token ← s.readToken
  let vault := s.readVault agent
  let haircutBps ← s.haircutAtDeposit vault
  let collateral ← orFail (i128.checkedAdd vault.collateral amount) (.vault .InvalidAmount)
  let s := s.writeVault agent { vault with collateral := collateral, haircutBps := haircutBps }
  let bank ← w.bank.transfer env.toEnv ⟨token,agent,self,amount,some self⟩
  let s := s.publish (.CollateralDeposited agent amount collateral)
  pure ⟨s.releaseLock,bank⟩

/-- `withdraw_collateral`: the floor and the solvency are checked only while float is outstanding. -/
def withdrawCollateral (agent : Address) (amount : Int) (w : VaultWorld) : Res VaultWorld := do
  env.requireAuth agent
  w.vault.assertCircuitOk self env "withdraw_collateral"
  let s ← w.vault.acquireLock
  ensure (0 < amount) (.vault .InvalidAmount)
  let token ← s.readToken
  let params ← s.readParams
  let vault := s.readVault agent
  let remaining ← debit vault.collateral amount .InsufficientCollateral
  ensure (0 < vault.float → params.minCollateral ≤ remaining) (.vault .MinCollateralViolated)
  ensure (0 < vault.float → vault.float ≤ maxFloatOf remaining vault.haircutBps)
    (.vault .SolvencyViolated)
  let s := s.writeVault agent { vault with collateral := remaining }
  let bank ← w.bank.transfer env.toEnv ⟨token,self,agent,amount,some self⟩
  let s := s.publish (.CollateralWithdrawn agent amount remaining)
  pure ⟨s.releaseLock,bank⟩

/-! ### Float -/

def mintFloat (agent : Address) (amount : Int) (s : AgentVault) : Res AgentVault := do
  s.requireOperator env
  s.assertCircuitOk self env "mint_float"
  ensure (0 < amount) (.vault .InvalidAmount)
  let vault := s.readVault agent
  let newFloat ← orFail (i128.checkedAdd vault.float amount) (.vault .InvalidAmount)
  ensure (newFloat ≤ maxFloatOf vault.collateral vault.haircutBps) (.vault .SolvencyViolated)
  let s := s.writeVault agent { vault with float := newFloat }
  pure (s.publish (.FloatMinted agent amount newFloat))

def burnFloat (agent : Address) (amount : Int) (s : AgentVault) : Res AgentVault := do
  env.requireAuth agent
  s.assertCircuitOk self env "burn_float"
  ensure (0 < amount) (.vault .InvalidAmount)
  let vault := s.readVault agent
  let remaining ← debit vault.float amount .InsufficientFloat
  let s := s.writeVault agent { vault with float := remaining }
  pure (s.publish (.FloatBurned agent amount remaining))

def transferFloat («from» «to» : Address) (amount : Int) (s : AgentVault) : Res AgentVault := do
  ensure («from» ≠ «to») (.vault .InvalidParams)
  env.requireAuth «from»
  env.requireAuth «to»
  s.assertCircuitOk self env "transfer_float"
  ensure (0 < amount) (.vault .InvalidAmount)
  let fromVault := s.readVault «from»
  let toVault := s.readVault «to»
  let fromFloat ← debit fromVault.float amount .InsufficientFloat
  let toFloat ← orFail (i128.checkedAdd toVault.float amount) (.vault .InvalidAmount)
  ensure (toFloat ≤ maxFloatOf toVault.collateral toVault.haircutBps) (.vault .SolvencyViolated)
  let s := s.writeVault «from» { fromVault with float := fromFloat }
  let s := s.writeVault «to» { toVault with float := toFloat }
  pure (s.publish (.FloatTransferred «from» «to» amount))

def transferToAgent («from» «to» : Address) (amount : Int) (s : AgentVault) : Res AgentVault :=
  transferFloat self env «from» «to» amount s

def netOf (entries : List (Address × Int)) : Res Int :=
  entries.foldlM (fun sum entry => orFail (i128.checkedAdd sum entry.2) (.vault .NetNotZero)) 0

/-- One round of the loop of `settle_net`: the vault is read as the earlier rounds left it. -/
def settleEntry (timestamp : Nat) (s : AgentVault) (entry : Address × Int) : Res AgentVault := do
  let vault := s.readVault entry.1
  let newFloat ← orFail (i128.checkedAdd vault.float entry.2) (.vault .InsufficientFloat)
  ensure (0 ≤ newFloat) (.vault .InsufficientFloat)
  ensure (newFloat ≤ maxFloatOf vault.collateral vault.haircutBps) (.vault .SolvencyViolated)
  let s := s.writeVault entry.1 { vault with float := newFloat, lastSettled := timestamp }
  pure (s.publish (.VaultSettled entry.1 entry.2 newFloat))

def settleNet (entries : List (Address × Int)) (s : AgentVault) : Res AgentVault := do
  s.requireOperator env
  s.assertCircuitOk self env "settle_net"
  ensure (entries.length ≤ batchMax) (.vault .BatchTooLarge)
  let sum ← netOf entries
  ensure (sum = 0) (.vault .NetNotZero)
  entries.foldlM (settleEntry env.timestamp) s

/-! ### Configuration and checks -/

def setHaircut (agent : Address) (newHaircutBps : Nat) (s : AgentVault) : Res AgentVault := do
  s.requireOperator env
  let params ← s.readParams
  ensure (¬ (newHaircutBps = 0 ∨ params.maxHaircutBps < newHaircutBps)) (.vault .InvalidHaircut)
  let vault := s.readVault agent
  ensure (vault.float ≤ maxFloatOf vault.collateral newHaircutBps) (.vault .SolvencyViolated)
  let s := s.writeVault agent { vault with haircutBps := newHaircutBps }
  pure (s.publish (.HaircutUpdated agent vault.haircutBps newHaircutBps))

def invariantOf (agent : Address) (s : AgentVault) : Bool × Int × Int :=
  let vault := s.readVault agent
  let maxAllowed := maxFloatOf vault.collateral vault.haircutBps
  (decide (vault.float ≤ maxAllowed),vault.float,maxAllowed)

def checkInvariant (agent : Address) (s : AgentVault) : AgentVault × (Bool × Int × Int) :=
  let (holds,float,maxAllowed) := s.invariantOf agent
  (s.publish (.InvariantChecked agent holds float maxAllowed),(holds,float,maxAllowed))

end AgentVault

inductive VaultCall
  | init (owner operator token : Address) (maxHaircutBps : Nat) (minCollateral : Int)
  | depositCollateral (agent : Address) (amount : Int)
  | withdrawCollateral (agent : Address) (amount : Int)
  | mintFloat (agent : Address) (amount : Int)
  | burnFloat (agent : Address) (amount : Int)
  | transferFloat («from» «to» : Address) (amount : Int)
  | transferToAgent («from» «to» : Address) (amount : Int)
  | settleNet (entries : List (Address × Int))
  | setHaircut (agent : Address) (newHaircutBps : Nat)
  | checkInvariant (agent : Address)
  | transfer (token src dst : Address) (amount : Int)

def VaultCall.exec (self : Address) (env : TimedEnv) (w : VaultWorld) : VaultCall → Res VaultWorld
  | .init owner operator token maxHaircutBps minCollateral => do
    return { w with
      vault := ← AgentVault.init owner operator token maxHaircutBps minCollateral w.vault }
  | .depositCollateral agent amount => AgentVault.depositCollateral self env agent amount w
  | .withdrawCollateral agent amount => AgentVault.withdrawCollateral self env agent amount w
  | .mintFloat agent amount => do
    return { w with vault := ← AgentVault.mintFloat self env agent amount w.vault }
  | .burnFloat agent amount => do
    return { w with vault := ← AgentVault.burnFloat self env agent amount w.vault }
  | .transferFloat «from» «to» amount => do
    return { w with vault := ← AgentVault.transferFloat self env «from» «to» amount w.vault }
  | .transferToAgent «from» «to» amount => do
    return { w with vault := ← AgentVault.transferToAgent self env «from» «to» amount w.vault }
  | .settleNet entries => do
    return { w with vault := ← AgentVault.settleNet self env entries w.vault }
  | .setHaircut agent newHaircutBps => do
    return { w with vault := ← AgentVault.setHaircut env agent newHaircutBps w.vault }
  | .checkInvariant agent => pure { w with vault := (w.vault.checkInvariant agent).1 }
  | .transfer token src dst amount => do
    return { w with bank := ← w.bank.transfer env.toEnv ⟨token,src,dst,amount,env.invoker⟩ }

structure VaultInvocation (contract : Address) where
  env : TimedEnv
  call : VaultCall
  invoker : env.invoker ≠ some contract
  signed : env.signed contract = false

def vaultSystem (self : Address) : Transactional VaultWorld (VaultInvocation self) Fault where
  exec := fun i w => i.call.exec self i.env w

def VaultWorld.deployed (bank : Bank) : VaultWorld := ⟨AgentVault.empty,bank⟩

end DukaPay
