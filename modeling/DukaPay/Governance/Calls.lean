import DukaPay.Governance.Defs

/-! The entry points of the governance contract as one transactional system, and what each of them
has checked and done when it returns. -/
namespace DukaPay
open Contractlib Option

inductive GovernanceCall
  | initializeGovernance (admin targetContract : Address)
  | proposeAdminTransfer (proposedAdmin : Address) (signers : List Address)
      (threshold delaySeconds : Nat)
  | approveTransfer (signer : Address)
  | finalizeAdminTransfer (caller : Address)
  | cancelAdminTransfer
  | emergencyCancelProposal (proposalId : Nat) (reason : Option String)
  | expireProposal (caller : Address)
  | configureUpgradeSigners (signers : List Address) (threshold : Nat)
  | queueUpgrade (proposer target : Address) (newWasmHash : Bytes32)
  | approveUpgrade (signer : Address)
  | executeUpgrade (caller : Address)
  | cancelUpgrade (caller : Address)
  | emergencyPause (caller : Address)
  | emergencyUnpause

def Governed.inGovernance (w : Governed) (call : Res Governance) : Res Governed := do
  let g ← call
  pure { w with governance := g }

lemma Governed.inGovernance_eq_ok {w w' : Governed} {call} :
    w.inGovernance call = .ok w' ↔ ∃ g, call = .ok g ∧ { w with governance := g } = w' := by
  simp only [inGovernance,eq_ok]

/-- Run an entry point of the governance contract at the address `self`, next to the loan manager at
`managerAddress`. -/
def GovernanceCall.exec (self managerAddress : Address) (env : GovernanceEnv) (w : Governed) :
    GovernanceCall → Res Governed
  | .initializeGovernance admin targetContract =>
    w.inGovernance (w.governance.initializeGovernance admin targetContract)
  | .proposeAdminTransfer proposedAdmin signers threshold delaySeconds =>
    w.inGovernance (w.governance.proposeAdminTransfer env.toTimedEnv proposedAdmin signers
      threshold delaySeconds)
  | .approveTransfer signer => w.inGovernance (w.governance.approveTransfer env.toTimedEnv signer)
  | .finalizeAdminTransfer caller =>
    Governance.finalizeAdminTransfer self managerAddress env caller w
  | .cancelAdminTransfer => w.inGovernance (w.governance.cancelAdminTransfer env.toTimedEnv)
  | .emergencyCancelProposal proposalId reason =>
    w.inGovernance (w.governance.emergencyCancelProposal env.toTimedEnv proposalId reason)
  | .expireProposal caller => w.inGovernance (w.governance.expireProposal env.toTimedEnv caller)
  | .configureUpgradeSigners signers threshold =>
    w.inGovernance (w.governance.configureUpgradeSigners env.toTimedEnv signers threshold)
  | .queueUpgrade proposer target newWasmHash =>
    w.inGovernance (w.governance.queueUpgrade self env.toTimedEnv proposer target newWasmHash)
  | .approveUpgrade signer => w.inGovernance (w.governance.approveUpgrade env.toTimedEnv signer)
  | .executeUpgrade caller => w.inGovernance (w.governance.executeUpgrade env caller)
  | .cancelUpgrade caller => w.inGovernance (w.governance.cancelUpgrade env.toTimedEnv caller)
  | .emergencyPause caller => w.inGovernance (w.governance.emergencyPause env.toTimedEnv caller)
  | .emergencyUnpause => w.inGovernance (w.governance.emergencyUnpause env.toTimedEnv)

structure GovernanceInvocation where
  env : GovernanceEnv
  call : GovernanceCall

abbrev GovernanceInvocation.time (i : GovernanceInvocation) : Nat := i.env.timestamp

/-- The governance contract at `self` and the loan manager at `managerAddress`, the contract called
by anyone at any time. -/
def governanceSystem (self managerAddress : Address) :
    Transactional Governed GovernanceInvocation Fault where
  exec := fun i w => i.call.exec self managerAddress i.env w

namespace Governance

def newTransfer (env : TimedEnv) (proposedAdmin : Address) (signers : List Address)
    (threshold delaySeconds : Nat) (g : Governance) : PendingTransfer where
  id := g.proposalCount + 1
  proposedAdmin := proposedAdmin
  signers := signers
  threshold := threshold
  executableAfter := u64.saturatingAdd env.timestamp delaySeconds
  approvals := ∅
  proposedAt := env.timestamp
  status := .Active

def newUpgrade (env : TimedEnv) (proposer target : Address) (newWasmHash : Bytes32)
    (g : Governance) : PendingUpgrade where
  id := g.upgradeCount + 1
  target := target
  newWasmHash := newWasmHash
  proposedBy := proposer
  proposedAt := env.timestamp
  executableAfter := u64.saturatingAdd env.timestamp upgradeTimelockSeconds
  approvals := ∅

def MayManage (who : Address) (g : Governance) : Prop :=
  g.isUpgradeSigner who = true ∨ g.admin = some who

lemma requireSignerOrAdmin_eq_ok {who} {g : Governance} {u} :
    g.requireSignerOrAdmin who = .ok u ↔ g.MayManage who := by
  unfold requireSignerOrAdmin MayManage
  split
  · next h => simp [h,pure_eq_ok]
  · next h =>
    simp only [readAdmin,eq_ok,h,Bool.false_eq_true,false_or]
    constructor
    · rintro ⟨_,ha,rfl⟩
      exact ha
    · intro ha
      exact ⟨who,ha,rfl⟩

end Governance

open Governance in
variable (self managerAddress : Address) (env : GovernanceEnv) (w : Governed) in
inductive GovernanceCall.Effect : GovernanceCall → Governed → Prop
  | initializeGovernance (admin targetContract : Address) (hnew : w.governance.admin = none) :
    Effect (.initializeGovernance admin targetContract)
      { w with
        governance := { w.governance with
            admin := some admin
            target := some targetContract
            proposalCount := 0 } }
  | proposeAdminTransfer (proposedAdmin : Address) (signers : List Address)
    (threshold delaySeconds : Nat) (admin : Address) (hadmin : w.governance.admin = some admin)
    (hauth : env.Authorized admin) (hfree : w.governance.hasPendingTransfer = false)
    (hcooldown : ∀ lastCancelledAt ∈ w.governance.lastCancelledAt,
      u64.saturatingAdd lastCancelledAt reproposalCooldownSeconds ≤ env.timestamp)
    (hnonempty : signers ≠ []) (hmax : signers.length ≤ maxSigners) (hnodup : signers.Nodup)
    (hlow : 1 ≤ threshold) (hhigh : threshold ≤ signers.length)
    (hdelay : minTimelockSeconds ≤ delaySeconds) (hid : w.governance.proposalCount + 1 ≤ u32.hi) :
    Effect
      (.proposeAdminTransfer proposedAdmin signers threshold delaySeconds)
      { w with
        governance := { w.governance with
            proposalCount := w.governance.proposalCount + 1
            pending := some (w.governance.newTransfer env.toTimedEnv proposedAdmin signers
              threshold delaySeconds) }.publish
            (.AdminTransferProposed proposedAdmin signers threshold
              (u64.saturatingAdd env.timestamp delaySeconds) admin env.timestamp) }
  | approveTransfer (signer : Address) (p : PendingTransfer) (hauth : env.Authorized signer)
    (hp : w.governance.pending = some p) (hactive : p.status = .Active)
    (hsigner : signer ∈ p.signers) :
    Effect (.approveTransfer signer)
      { w with
        governance := { w.governance with
            pending := some { p with approvals := p.approvals.insert signer true } }.publish
            (.ProposalApproved p.id signer (p.approvals.insert signer true).entries.length
              p.threshold env.timestamp) }
  | finalizeAdminTransfer (caller : Address) (p : PendingTransfer) (target : Address)
    (manager : LoanManager) (hauth : env.Authorized caller) (hp : w.governance.pending = some p)
    (hactive : p.status = .Active) (htarget : w.governance.target = some target)
    (htimelock : p.executableAfter ≤ env.timestamp)
    (httl : env.timestamp < u64.saturatingAdd p.proposedAt proposalTtlSeconds)
    (hcount : p.threshold ≤ p.approvals.entries.length)
    (hmanager : invokeSetAdmin self managerAddress env target p.proposedAdmin w.manager =
      .ok manager) :
    Effect (.finalizeAdminTransfer caller)
      { governance := { w.governance with
            pending := none
            admin := some p.proposedAdmin
            lastCancelledAt := some env.timestamp }.publish
            (.AdminTransferFinalized p.proposedAdmin caller p.approvals.entries.length
              env.timestamp)
        manager := manager }
  | cancelAdminTransfer (p : PendingTransfer) (admin : Address)
    (hadmin : w.governance.admin = some admin) (hauth : env.Authorized admin)
    (hp : w.governance.pending = some p) :
    Effect .cancelAdminTransfer
      { w with
        governance := w.governance.cancelTransfer env.toTimedEnv p
          (.AdminTransferCancelled admin env.timestamp) }
  | emergencyCancelProposal (reason : Option String) (p : PendingTransfer) (admin : Address)
    (hadmin : w.governance.admin = some admin) (hauth : env.Authorized admin)
    (hp : w.governance.pending = some p) :
    Effect (.emergencyCancelProposal p.id reason)
      { w with
        governance := w.governance.cancelTransfer env.toTimedEnv p
          (.ProposalCancelled admin p.id reason env.timestamp) }
  | expireProposal (caller : Address) (p : PendingTransfer) (hauth : env.Authorized caller)
    (hp : w.governance.pending = some p) (hactive : p.status = .Active)
    (httl : u64.saturatingAdd p.proposedAt proposalTtlSeconds ≤ env.timestamp) :
    Effect (.expireProposal caller)
      { w with
        governance := { w.governance with pending := none }.publish
          (.ProposalExpired caller p.proposedAt env.timestamp) }
  | configureUpgradeSigners (signers : List Address) (threshold : Nat) (admin : Address)
    (hadmin : w.governance.admin = some admin) (hauth : env.Authorized admin)
    (hfree : w.governance.pendingUpgrade = none) (hnonempty : signers ≠ [])
    (hmax : signers.length ≤ maxUpgradeSigners) (hnodup : signers.Nodup) (hlow : 1 ≤ threshold)
    (hhigh : threshold ≤ signers.length) :
    Effect (.configureUpgradeSigners signers threshold)
      { w with
        governance := { w.governance with
            upgradeSigners := some signers
            upgradeThreshold := some threshold
            upgradesPaused := some (w.governance.upgradesPaused.getD false) } }
  | queueUpgrade (proposer target : Address) (newWasmHash : Bytes32)
    (hauth : env.Authorized proposer) (hmay : w.governance.MayManage proposer)
    (htarget : target ≠ self)
    (hfree : ∀ p ∈ w.governance.pendingUpgrade, upgradeExpiry p ≤ env.timestamp)
    (hid : w.governance.upgradeCount + 1 ≤ u32.hi) :
    Effect (.queueUpgrade proposer target newWasmHash)
      { w with
        governance := { w.governance with
            upgradeCount := w.governance.upgradeCount + 1
            pendingUpgrade := some (w.governance.newUpgrade env.toTimedEnv proposer target
              newWasmHash) }.publish
            (.UpgradeQueued (w.governance.upgradeCount + 1) target newWasmHash
              (u64.saturatingAdd env.timestamp upgradeTimelockSeconds) proposer) }
  | approveUpgrade (signer : Address) (p : PendingUpgrade) (threshold : Nat)
    (hauth : env.Authorized signer) (hsigner : w.governance.isUpgradeSigner signer = true)
    (hp : w.governance.pendingUpgrade = some p) (httl : env.timestamp < upgradeExpiry p) :
    Effect (.approveUpgrade signer)
      { w with
        governance := { w.governance with
            pendingUpgrade := some { p with approvals := p.approvals.insert signer true } }.publish
            (.UpgradeApproved p.id signer (p.approvals.insert signer true).entries.length
              threshold) }
  | executeUpgrade (caller : Address) (p : PendingUpgrade) (threshold : Nat)
    (hauth : env.Authorized caller) (hpaused : w.governance.isUpgradePaused = false)
    (hp : w.governance.pendingUpgrade = some p) (htimelock : p.executableAfter ≤ env.timestamp)
    (httl : env.timestamp < upgradeExpiry p)
    (hthreshold : w.governance.upgradeThreshold = some threshold) (hlow : 0 < threshold)
    (hcount : threshold ≤ p.approvals.entries.length)
    (hreturns : env.upgrades p.target p.newWasmHash = true) :
    Effect (.executeUpgrade caller)
      { w with
        governance := { w.governance with pendingUpgrade := none }.publish
          (.UpgradeExecuted p.id p.target p.newWasmHash caller env.timestamp) }
  | cancelUpgrade (caller : Address) (p : PendingUpgrade) (hauth : env.Authorized caller)
    (hmay : w.governance.MayManage caller) (hp : w.governance.pendingUpgrade = some p) :
    Effect (.cancelUpgrade caller)
      { w with
        governance := { w.governance with pendingUpgrade := none }.publish
          (.UpgradeCancelled p.id caller) }
  | emergencyPause (caller : Address) (hauth : env.Authorized caller)
    (hmay : w.governance.MayManage caller) :
    Effect (.emergencyPause caller)
      { w with
        governance := { w.governance with upgradesPaused := some true }.publish
          (.UpgradePause true caller env.timestamp) }
  | emergencyUnpause (admin : Address) (hadmin : w.governance.admin = some admin)
    (hauth : env.Authorized admin) :
    Effect .emergencyUnpause
      { w with
        governance := { w.governance with upgradesPaused := some false }.publish
          (.UpgradePause false admin env.timestamp) }

namespace GovernanceCall
open Governance
variable {self managerAddress : Address} {env : GovernanceEnv} {w w' : Governed}
  {c : GovernanceCall}

lemma readUpgradeThreshold_eq_ok {g : Governance} {threshold} :
    g.readUpgradeThreshold = .ok threshold ↔ g.upgradeThreshold = some threshold ∧ 0 < threshold := by
  rw [readUpgradeThreshold,orFail_eq_ok,filter_eq_some_iff,decide_eq_true_eq]

lemma effect_of_ok (h : c.exec self managerAddress env w = .ok w') :
    c.Effect self managerAddress env w w' := by
  cases c with
  | initializeGovernance adm tc =>
    simp only [exec,Governed.inGovernance_eq_ok,Governance.initializeGovernance,eq_ok] at h
    obtain ⟨_,⟨hne,rfl⟩,rfl⟩ := h
    exact .initializeGovernance adm tc hne
  | proposeAdminTransfer pa sgs thr delay =>
    simp only [exec,Governed.inGovernance_eq_ok,Governance.proposeAdminTransfer,readAdmin,
      eq_ok,distinctMembers_eq_ok] at h
    obtain ⟨_,⟨adm,ha,hau,hf,hc,hn,hma,_,⟨hno,rfl⟩,hl, hh,hd,_,⟨hi,rfl⟩,rfl⟩,rfl⟩ := h
    exact .proposeAdminTransfer pa sgs thr delay adm ha hau hf hc hn hma hno hl hh hd hi
  | approveTransfer sgn =>
    simp only [exec,Governed.inGovernance_eq_ok,Governance.approveTransfer,eq_ok] at h
    obtain ⟨_,⟨hau,p,hp,hac,hs,rfl⟩,rfl⟩ := h
    exact .approveTransfer sgn p hau hp hac hs
  | finalizeAdminTransfer clr =>
    simp only [exec,Governance.finalizeAdminTransfer,eq_ok] at h
    obtain ⟨hau,p,hp,hac,tgt,ht,hti,htt,hco,manager,hm,rfl⟩ := h
    exact .finalizeAdminTransfer clr p tgt manager hau hp hac ht hti htt hco hm
  | cancelAdminTransfer =>
    simp only [exec,Governed.inGovernance_eq_ok,Governance.cancelAdminTransfer,readAdmin,eq_ok] at h
    obtain ⟨_,⟨adm,ha,hau,p,hp,rfl⟩,rfl⟩ := h
    exact .cancelAdminTransfer p adm ha hau hp
  | emergencyCancelProposal pid rsn =>
    simp only [exec,Governed.inGovernance_eq_ok,Governance.emergencyCancelProposal,readAdmin,
      eq_ok] at h
    obtain ⟨_,⟨adm,ha,hau,p,hp,rfl,rfl⟩,rfl⟩ := h
    exact .emergencyCancelProposal rsn p adm ha hau hp
  | expireProposal clr =>
    simp only [exec,Governed.inGovernance_eq_ok,Governance.expireProposal,eq_ok] at h
    obtain ⟨_,⟨hau,p,hp,hac,htt,rfl⟩,rfl⟩ := h
    exact .expireProposal clr p hau hp hac htt
  | configureUpgradeSigners sgs thr =>
    simp only [exec,Governed.inGovernance_eq_ok,Governance.configureUpgradeSigners,readAdmin,
      eq_ok,distinctMembers_eq_ok,isSome_eq_false_iff,isNone_iff_eq_none] at h
    obtain ⟨_,⟨adm,ha,hau,hf,hn,hma,_,⟨hno,rfl⟩,hl,hh,rfl⟩,rfl⟩ := h
    exact .configureUpgradeSigners sgs thr adm ha hau hf hn hma hno hl hh
  | queueUpgrade prp tgt wasm =>
    simp only [exec,Governed.inGovernance_eq_ok,Governance.queueUpgrade,
      requireSignerOrAdmin_eq_ok,eq_ok] at h
    obtain ⟨_,⟨hau,hmay,ht,hf,_,⟨hi,rfl⟩,rfl⟩,rfl⟩ := h
    exact .queueUpgrade prp tgt wasm hau hmay ht hf hi
  | approveUpgrade sgn =>
    simp only [exec,Governed.inGovernance_eq_ok,Governance.approveUpgrade,eq_ok] at h
    obtain ⟨_,⟨hau,hs,p,hp,htt,thr,-,rfl⟩,rfl⟩ := h
    exact .approveUpgrade sgn p thr hau hs hp htt
  | executeUpgrade clr =>
    simp only [exec,Governed.inGovernance_eq_ok,Governance.executeUpgrade,
      readUpgradeThreshold_eq_ok,eq_ok] at h
    obtain ⟨_,⟨hau,hpa,p,hp,hti,htt,thr,⟨hth,hl⟩,hco, hr,rfl⟩,rfl⟩ := h
    exact .executeUpgrade clr p thr hau hpa hp hti htt hth hl hco hr
  | cancelUpgrade clr =>
    simp only [exec,Governed.inGovernance_eq_ok,Governance.cancelUpgrade,
      requireSignerOrAdmin_eq_ok,eq_ok] at h
    obtain ⟨_,⟨hau,hmay,p,hp,rfl⟩,rfl⟩ := h
    exact .cancelUpgrade clr p hau hmay hp
  | emergencyPause clr =>
    simp only [exec,Governed.inGovernance_eq_ok,Governance.emergencyPause,
      requireSignerOrAdmin_eq_ok,eq_ok] at h
    obtain ⟨_,⟨hau,hmay,rfl⟩,rfl⟩ := h
    exact .emergencyPause clr hau hmay
  | emergencyUnpause =>
    simp only [exec,Governed.inGovernance_eq_ok,Governance.emergencyUnpause,readAdmin,eq_ok] at h
    obtain ⟨_,⟨adm,ha,hau,rfl⟩,rfl⟩ := h
    exact .emergencyUnpause adm ha hau

end GovernanceCall

def GovernanceEnv.smallAt (timestamp : Nat) : GovernanceEnv :=
  { TimedEnv.smallAt timestamp with setsAdmin := fun _ _ => true, upgrades := fun _ _ => true }

end DukaPay
