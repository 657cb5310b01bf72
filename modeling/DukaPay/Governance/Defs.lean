import DukaPay.Contractlib.Ballot
import DukaPay.LoanManager.Settings

/-! The contract that holds the role of the admin and hands it over. -/
namespace DukaPay
open Contractlib

inductive ProposalStatus
  | Active
  | Cancelled
  deriving DecidableEq

structure PendingTransfer where
  id : Nat
  proposedAdmin : Address
  signers : List Address
  threshold : Nat
  executableAfter : Nat
  approvals : Storage Address Bool
  proposedAt : Nat
  status : ProposalStatus

structure PendingUpgrade where
  id : Nat
  target : Address
  newWasmHash : Bytes32
  proposedBy : Address
  proposedAt : Nat
  executableAfter : Nat
  approvals : Storage Address Bool

inductive GovernanceEvent
  | AdminTransferProposed (proposedAdmin : Address) (signers : List Address)
      (threshold executableAfter : Nat) (proposedBy : Address) (timestamp : Nat)
  | ProposalApproved (proposalId : Nat) (signer : Address)
      (approvalsSoFar threshold timestamp : Nat)
  | AdminTransferFinalized (newAdmin finalizedBy : Address) (approvalCount timestamp : Nat)
  | AdminTransferCancelled (cancelledBy : Address) (timestamp : Nat)
  | ProposalCancelled (cancelledBy : Address) (proposalId : Nat) (reason : Option String)
      (timestamp : Nat)
  | ProposalExpired (expiredBy : Address) (proposalTimestamp expiryTimestamp : Nat)
  | UpgradeQueued (id : Nat) (target : Address) (newWasmHash : Bytes32) (executableAfter : Nat)
      (proposedBy : Address)
  | UpgradeApproved (id : Nat) (signer : Address) (approvals threshold : Nat)
  | UpgradeExecuted (id : Nat) (target : Address) (newWasmHash : Bytes32) (executedBy : Address)
      (timestamp : Nat)
  | UpgradeCancelled (id : Nat) (cancelledBy : Address)
  | UpgradePause (paused : Bool) (actor : Address) (timestamp : Nat)

structure Governance where
  admin : Option Address
  target : Option Address
  pending : Option PendingTransfer
  lastCancelledAt : Option Nat
  proposalCount : Nat
  upgradeSigners : Option (List Address)
  upgradeThreshold : Option Nat
  pendingUpgrade : Option PendingUpgrade
  upgradesPaused : Option Bool
  upgradeCount : Nat
  events : List GovernanceEvent

structure Governed where
  governance : Governance
  manager : LoanManager

structure GovernanceEnv extends TimedEnv where
  setsAdmin : Address → Address → Bool
  upgrades : Address → Bytes32 → Bool

namespace Governance

def minTimelockSeconds : Nat := 86400

def maxSigners : Nat := 20

def proposalTtlSeconds : Nat := 604800

def reproposalCooldownSeconds : Nat := 3600

def upgradeTimelockSeconds : Nat := 172800

def upgradeTtlSeconds : Nat := 1209600

def maxUpgradeSigners : Nat := 5

def empty : Governance where
  admin := none
  target := none
  pending := none
  lastCancelledAt := none
  proposalCount := 0
  upgradeSigners := none
  upgradeThreshold := none
  pendingUpgrade := none
  upgradesPaused := none
  upgradeCount := 0
  events := []

def publish (e : GovernanceEvent) (g : Governance) : Governance :=
  { g with events := e :: g.events }

def initializeGovernance (admin targetContract : Address) (g : Governance) : Res Governance := do
  ensure (g.admin = none) (.governance .AlreadyInitialized)
  pure { g with admin := some admin, target := some targetContract, proposalCount := 0 }

variable (g : Governance)

def readAdmin : Res Address := orFail g.admin (.governance .NotInitialized)

/-! ### Transfer of the role of the admin -/

def hasPendingTransfer : Bool :=
  g.pending.any fun pending => decide (pending.status = .Active)

variable (env : TimedEnv)

def proposeAdminTransfer (proposedAdmin : Address) (signers : List Address)
    (threshold delaySeconds : Nat) (g : Governance) : Res Governance := do
  let admin ← g.readAdmin
  env.requireAuth admin
  ensure (g.hasPendingTransfer = false) (.governance .TransferAlreadyPending)
  ensure (∀ lastCancelledAt ∈ g.lastCancelledAt,
      u64.saturatingAdd lastCancelledAt reproposalCooldownSeconds ≤ env.timestamp)
    (.governance .ReproposalCooldownActive)
  ensure (signers ≠ []) (.governance .EmptySignerList)
  ensure (signers.length ≤ maxSigners) (.governance .TooManySigners)
  let uniqueSigners ← distinctMembers (.governance .DuplicateSigner) signers
  ensure (1 ≤ threshold) (.governance .ThresholdTooLow)
  ensure (threshold ≤ signers.length) (.governance .ThresholdExceedsSignerCount)
  ensure (minTimelockSeconds ≤ delaySeconds) (.governance .DelayTooShort)
  let executableAfter := u64.saturatingAdd env.timestamp delaySeconds
  let proposalId ← expect (u32.checkedAdd g.proposalCount 1) "attempt to add with overflow"
  let pending : PendingTransfer :=
    { id := proposalId
      proposedAdmin := proposedAdmin
      signers := uniqueSigners
      threshold := threshold
      executableAfter := executableAfter
      approvals := ∅
      proposedAt := env.timestamp
      status := .Active }
  pure ({ g with proposalCount := proposalId, pending := some pending }.publish
    (.AdminTransferProposed proposedAdmin signers threshold executableAfter admin env.timestamp))

def approveTransfer (signer : Address) (g : Governance) : Res Governance := do
  env.requireAuth signer
  let pending ← orFail g.pending (.governance .NoPendingTransfer)
  ensure (pending.status = .Active) (.governance .ProposalNotActive)
  ensure (signer ∈ pending.signers) (.governance .SignerNotAllowed)
  let pending := { pending with approvals := pending.approvals.insert signer true }
  pure ({ g with pending := some pending }.publish
    (.ProposalApproved pending.id signer pending.approvals.entries.length pending.threshold
      env.timestamp))

/-- The call of `set_admin` on the target, which is the loan manager at `managerAddress` or another
contract. -/
def invokeSetAdmin (self managerAddress : Address) (env : GovernanceEnv)
    (target newAdmin : Address) (m : LoanManager) : Res LoanManager :=
  if target = managerAddress then m.setAdmin (env.toEnv.calledBy self) newAdmin
  else do
    ensure (env.setsAdmin target newAdmin = true) .foreign
    pure m

def finalizeAdminTransfer (self managerAddress : Address) (env : GovernanceEnv) (caller : Address)
    (w : Governed) : Res Governed := do
  let g := w.governance
  env.requireAuth caller
  let pending ← orFail g.pending (.governance .NoPendingTransfer)
  ensure (pending.status = .Active) (.governance .ProposalNotActive)
  let target ← orFail g.target (.governance .TargetNotSet)
  ensure (pending.executableAfter ≤ env.timestamp) (.governance .TimelockNotElapsed)
  let expiryTime := u64.saturatingAdd pending.proposedAt proposalTtlSeconds
  ensure (env.timestamp < expiryTime) (.governance .ProposalExpired)
  let approvalCount := pending.approvals.entries.length
  ensure (pending.threshold ≤ approvalCount) (.governance .ThresholdNotMet)
  let newAdmin := pending.proposedAdmin
  let manager ← invokeSetAdmin self managerAddress env target newAdmin w.manager
  let g :=
    { g with pending := none, admin := some newAdmin, lastCancelledAt := some env.timestamp }
  pure
    { governance := g.publish
        (.AdminTransferFinalized newAdmin caller approvalCount env.timestamp)
      manager := manager }

def cancelTransfer (pending : PendingTransfer) (event : GovernanceEvent)
    (g : Governance) : Governance :=
  if pending.status = .Cancelled then g
  else
    { g with
      pending := some { pending with status := .Cancelled }
      lastCancelledAt := some env.timestamp }.publish event

def cancelAdminTransfer : Res Governance := do
  let admin ← g.readAdmin
  env.requireAuth admin
  let pending ← orFail g.pending (.governance .NoPendingTransfer)
  pure (g.cancelTransfer env pending (.AdminTransferCancelled admin env.timestamp))

def emergencyCancelProposal (proposalId : Nat) (reason : Option String)
    (g : Governance) : Res Governance := do
  let admin ← g.readAdmin
  env.requireAuth admin
  let pending ← orFail g.pending (.governance .NoPendingTransfer)
  ensure (pending.id = proposalId) (.governance .ProposalIdMismatch)
  pure (g.cancelTransfer env pending (.ProposalCancelled admin proposalId reason env.timestamp))

def expireProposal (caller : Address) (g : Governance) : Res Governance := do
  env.requireAuth caller
  let pending ← orFail g.pending (.governance .NoPendingTransfer)
  ensure (pending.status = .Active) (.governance .ProposalNotActive)
  let expiryTime := u64.saturatingAdd pending.proposedAt proposalTtlSeconds
  ensure (expiryTime ≤ env.timestamp) (.governance .ProposalNotExpired)
  pure ({ g with pending := none }.publish
    (.ProposalExpired caller pending.proposedAt env.timestamp))

/-! ### Upgrades -/

def isUpgradeSigner (who : Address) (g : Governance) : Bool :=
  g.upgradeSigners.any fun signers => decide (who ∈ signers)

def requireSignerOrAdmin (who : Address) (g : Governance) : Res Unit :=
  if g.isUpgradeSigner who then pure ()
  else do
    let admin ← g.readAdmin
    ensure (admin = who) (.governance .NotUpgradeSigner)

def readUpgradeThreshold : Res Nat :=
  orFail (g.upgradeThreshold.filter fun threshold => decide (0 < threshold))
    (.governance .UpgradeGovernanceNotConfigured)

def isUpgradePaused : Bool := g.upgradesPaused.getD false

def upgradeExpiry (pending : PendingUpgrade) : Nat :=
  u64.saturatingAdd pending.proposedAt upgradeTtlSeconds

def configureUpgradeSigners (signers : List Address) (threshold : Nat)
    (g : Governance) : Res Governance := do
  let admin ← g.readAdmin
  env.requireAuth admin
  ensure (g.pendingUpgrade.isSome = false) (.governance .UpgradeAlreadyPending)
  ensure (signers ≠ []) (.governance .EmptySignerList)
  ensure (signers.length ≤ maxUpgradeSigners) (.governance .TooManyUpgradeSigners)
  let unique ← distinctMembers (.governance .DuplicateSigner) signers
  ensure (1 ≤ threshold) (.governance .InvalidUpgradeThreshold)
  ensure (threshold ≤ unique.length) (.governance .InvalidUpgradeThreshold)
  pure { g with
    upgradeSigners := some unique
    upgradeThreshold := some threshold
    upgradesPaused := some (g.upgradesPaused.getD false) }

def queueUpgrade (self : Address) (env : TimedEnv) (proposer target : Address)
    (newWasmHash : Bytes32) (g : Governance) : Res Governance := do
  env.requireAuth proposer
  g.requireSignerOrAdmin proposer
  ensure (target ≠ self) (.governance .InvalidUpgradeTarget)
  -- an upgrade that has expired is replaced
  ensure (∀ pending ∈ g.pendingUpgrade, upgradeExpiry pending ≤ env.timestamp)
    (.governance .UpgradeAlreadyPending)
  let id ← expect (u32.checkedAdd g.upgradeCount 1) "attempt to add with overflow"
  let executableAfter := u64.saturatingAdd env.timestamp upgradeTimelockSeconds
  let pending : PendingUpgrade :=
    { id := id
      target := target
      newWasmHash := newWasmHash
      proposedBy := proposer
      proposedAt := env.timestamp
      executableAfter := executableAfter
      approvals := ∅ }
  pure ({ g with upgradeCount := id, pendingUpgrade := some pending }.publish
    (.UpgradeQueued id target newWasmHash executableAfter proposer))

def approveUpgrade (signer : Address) (g : Governance) : Res Governance := do
  env.requireAuth signer
  ensure (g.isUpgradeSigner signer = true) (.governance .NotUpgradeSigner)
  let pending ← orFail g.pendingUpgrade (.governance .NoPendingUpgrade)
  ensure (env.timestamp < upgradeExpiry pending) (.governance .UpgradeExpired)
  let pending := { pending with approvals := pending.approvals.insert signer true }
  let threshold ← g.readUpgradeThreshold
  pure ({ g with pendingUpgrade := some pending }.publish
    (.UpgradeApproved pending.id signer pending.approvals.entries.length threshold))

def executeUpgrade (env : GovernanceEnv) (caller : Address) (g : Governance) : Res Governance := do
  env.requireAuth caller
  ensure (g.isUpgradePaused = false) (.governance .UpgradesPaused)
  let pending ← orFail g.pendingUpgrade (.governance .NoPendingUpgrade)
  ensure (pending.executableAfter ≤ env.timestamp) (.governance .UpgradeTimelockNotElapsed)
  ensure (env.timestamp < upgradeExpiry pending) (.governance .UpgradeExpired)
  let threshold ← g.readUpgradeThreshold
  ensure (threshold ≤ pending.approvals.entries.length) (.governance .UpgradeThresholdNotMet)
  ensure (env.upgrades pending.target pending.newWasmHash = true) .foreign
  pure ({ g with pendingUpgrade := none }.publish
    (.UpgradeExecuted pending.id pending.target pending.newWasmHash caller env.timestamp))

def cancelUpgrade (caller : Address) (g : Governance) : Res Governance := do
  env.requireAuth caller
  g.requireSignerOrAdmin caller
  let pending ← orFail g.pendingUpgrade (.governance .NoPendingUpgrade)
  pure ({ g with pendingUpgrade := none }.publish (.UpgradeCancelled pending.id caller))

def emergencyPause (caller : Address) (g : Governance) : Res Governance := do
  env.requireAuth caller
  g.requireSignerOrAdmin caller
  pure ({ g with upgradesPaused := some true }.publish (.UpgradePause true caller env.timestamp))

def emergencyUnpause : Res Governance := do
  let admin ← g.readAdmin
  env.requireAuth admin
  pure ({ g with upgradesPaused := some false }.publish (.UpgradePause false admin env.timestamp))

end Governance

end DukaPay
