import DukaPay.Contractlib.Ballot
import DukaPay.Contractlib.Storage
import DukaPay.Contractlib.Transaction
import DukaPay.Money
import DukaPay.Soroban

/-! Any member of the signer set may pause everything, one contract, or one function of a contract,
for 72 hours. -/
namespace DukaPay
open Contractlib

inductive OverrideTarget
  | Global
  | Contract (contract : Address)
  | Function (contract : Address) (function : String)

inductive OverrideStatus
  | Active
  | Executed
  | Cancelled
  deriving DecidableEq

structure OverrideProposal where
  id : Nat
  target : OverrideTarget
  proposer : Address
  proposedAt : Nat
  executableAfter : Nat
  approvals : Storage Address Bool
  status : OverrideStatus

structure PauseScope where
  scope : String
  contract : Option Address
  function : Option String
  deriving DecidableEq

inductive BreakerEvent
  | BreakerInit (admin : Address) (signers threshold overrideTimelock : Nat)
  | BreakerAdmin (caller newAdmin : Address)
  | Paused (scope : PauseScope) (triggeredBy : Address) (expiresAt timestamp : Nat)
  | Lifted (scope : PauseScope) (liftedBy : Address) (timestamp : Nat)
  | OverrideProp (id : Nat) (scope : PauseScope) (proposer : Address)
    (executableAfter timestamp : Nat)
  | OverrideAppr (id : Nat) (signer : Address) (approvalsSoFar threshold timestamp : Nat)
  | OverrideExec (id : Nat) (scope : PauseScope) (executedBy : Address) (timestamp : Nat)
  | OverrideCanc (id : Nat) (cancelledBy : Address) (timestamp : Nat)
  deriving DecidableEq

structure CircuitBreaker where
  admin : Option Address
  signers : List Address
  threshold : Nat
  overrideTimelock : Option Nat
  overrideCount : Nat
  global : Option Nat
  state : Storage Address (Storage String Nat)
  overrides : Storage Nat OverrideProposal
  events : List BreakerEvent

namespace CircuitBreaker

def pauseDurationSeconds : Nat := 259200

def defaultOverrideTimelock : Nat := 86400

def minOverrideTimelock : Nat := 3600

def maxSigners : Nat := 32

def contractWildcard : String := "__all__"

def empty : CircuitBreaker where
  admin := none
  signers := []
  threshold := 0
  overrideTimelock := none
  overrideCount := 0
  global := none
  state := ∅
  overrides := ∅
  events := []

def publish (e : BreakerEvent) (b : CircuitBreaker) : CircuitBreaker :=
  { b with events := e :: b.events }

/-! ### Configuration -/

def readAdmin (b : CircuitBreaker) : Res Address := orFail b.admin (.breaker .NotInitialized)

def rejectDuplicates (signers : List Address) : Res Unit := do
  let _ ← distinctMembers (.breaker .DuplicateSigner) signers
  pure ()

def validateSigners (signers : List Address) (threshold : Nat) : Res Unit := do
  ensure (signers ≠ []) (.breaker .EmptySignerList)
  ensure (signers.length ≤ maxSigners) (.breaker .TooManySigners)
  rejectDuplicates signers
  ensure (1 ≤ threshold) (.breaker .ThresholdTooLow)
  ensure (threshold ≤ signers.length) (.breaker .ThresholdExceedsSigners)

def initializeBreaker (admin : Address) (signers : List Address)
    (threshold overrideTimelock : Nat) (b : CircuitBreaker) : Res CircuitBreaker := do
  ensure (b.admin = none) (.breaker .AlreadyInitialized)
  validateSigners signers threshold
  ensure (minOverrideTimelock ≤ overrideTimelock) (.breaker .TimelockTooShort)
  let b :=
    { b with
      admin := some admin
      signers := signers
      threshold := threshold
      overrideTimelock := some overrideTimelock
      overrideCount := 0
      state := ∅ }
  pure (b.publish (.BreakerInit admin signers.length threshold overrideTimelock))

variable (env : TimedEnv)

def setAdmin (caller newAdmin : Address) (b : CircuitBreaker) : Res CircuitBreaker := do
  env.requireAuth caller
  let admin ← b.readAdmin
  env.requireAuth admin
  pure ({ b with admin := some newAdmin }.publish (.BreakerAdmin caller newAdmin))

variable (caller : Address)

def setSigners (signers : List Address) (threshold : Nat)
    (b : CircuitBreaker) : Res CircuitBreaker := do
  env.requireAuth caller
  let admin ← b.readAdmin
  env.requireAuth admin
  validateSigners signers threshold
  pure { b with signers := signers, threshold := threshold }

def setOverrideTimelock (overrideTimelock : Nat) (b : CircuitBreaker) : Res CircuitBreaker := do
  env.requireAuth caller
  let admin ← b.readAdmin
  env.requireAuth admin
  ensure (minOverrideTimelock ≤ overrideTimelock) (.breaker .TimelockTooShort)
  pure { b with overrideTimelock := some overrideTimelock }

/-! ### Pauses -/

def requireSigner (signer : Address) (b : CircuitBreaker) : Res Unit :=
  ensure (signer ∈ b.signers) (.breaker .SignerNotAllowed)

def pauseExpiry : Nat := u64.saturatingAdd env.timestamp pauseDurationSeconds

variable (contract : Address)

def setPause (function : String) (expiresAt : Nat) (b : CircuitBreaker) : CircuitBreaker :=
  let inner := (b.state.lookup contract).getD ∅
  { b with state := b.state.insert contract (inner.insert function expiresAt) }

def storePauses (inner : Storage String Nat)
    (state : Storage Address (Storage String Nat)) : Storage Address (Storage String Nat) :=
  if inner.entries.isEmpty then state.erase contract else state.insert contract inner

def clearPause (function : String) (b : CircuitBreaker) : CircuitBreaker :=
  match b.state.lookup contract with
  | none => b
  | some inner => { b with state := storePauses contract (inner.erase function) b.state }

def globalScope : PauseScope := ⟨"global",none,none⟩

def contractScope : PauseScope := ⟨"contract",some contract,none⟩

def functionScope (function : String) : PauseScope :=
  ⟨"function",some contract,some function⟩

def trip (scope : PauseScope) (store : Nat → CircuitBreaker → CircuitBreaker) (b : CircuitBreaker) :
    Res CircuitBreaker := do
  env.requireAuth caller
  b.requireSigner caller
  let expiresAt := pauseExpiry env
  pure ((store expiresAt b).publish (.Paused scope caller expiresAt env.timestamp))

def pauseAll : CircuitBreaker → Res CircuitBreaker :=
  trip env caller globalScope fun expiresAt b => { b with global := some expiresAt }

def pauseContract (caller contract : Address) : CircuitBreaker → Res CircuitBreaker :=
  trip env caller (contractScope contract) (setPause contract contractWildcard)

def pauseFunction (caller contract : Address) (function : String) :
    CircuitBreaker → Res CircuitBreaker :=
  trip env caller (functionScope contract function) (setPause contract function)

/-! ### Overrides -/

def readProposal (proposalId : Nat) (b : CircuitBreaker) : Res OverrideProposal :=
  orFail (b.overrides.lookup proposalId) (.breaker .ProposalNotFound)

def writeProposal (proposal : OverrideProposal) (b : CircuitBreaker) : CircuitBreaker :=
  { b with overrides := b.overrides.insert proposal.id proposal }

def describeTarget : OverrideTarget → PauseScope
  | .Global => globalScope
  | .Contract contract => contractScope contract
  | .Function contract function => functionScope contract function

def liftTarget (target : OverrideTarget) (b : CircuitBreaker) : CircuitBreaker :=
  match target with
  | .Global => { b with global := none }
  | .Contract contract => b.clearPause contract contractWildcard
  | .Function contract function => b.clearPause contract function

/-- Lift the targeted pause; the event names the breaker at `self` as the one who lifts it. -/
def applyOverride (self : Address) (env : TimedEnv) (target : OverrideTarget)
    (b : CircuitBreaker) : CircuitBreaker :=
  (b.liftTarget target).publish (.Lifted (describeTarget target) self env.timestamp)

def proposeOverride (proposer : Address) (target : OverrideTarget)
    (b : CircuitBreaker) : Res (CircuitBreaker × Nat) := do
  env.requireAuth proposer
  b.requireSigner proposer
  let timelock := b.overrideTimelock.getD defaultOverrideTimelock
  let executableAfter := u64.saturatingAdd env.timestamp timelock
  let id ← expect (u32.checkedAdd b.overrideCount 1) "attempt to add with overflow"
  let proposal : OverrideProposal :=
    { id := id
      target := target
      proposer := proposer
      proposedAt := env.timestamp
      executableAfter := executableAfter
      approvals := ∅
      status := .Active }
  let b := { b with overrideCount := id }.writeProposal proposal
  pure (b.publish (.OverrideProp id (describeTarget target) proposer executableAfter
    env.timestamp),id)

def approveOverride (signer : Address) (proposalId : Nat) (b : CircuitBreaker) :
    Res CircuitBreaker := do
  env.requireAuth signer
  b.requireSigner signer
  let proposal ← b.readProposal proposalId
  ensure (proposal.status = .Active) (.breaker .ProposalNotActive)
  ensure ((proposal.approvals.lookup signer).getD false = false) (.breaker .AlreadyApproved)
  let proposal := { proposal with approvals := proposal.approvals.insert signer true }
  let b := b.writeProposal proposal
  pure (b.publish (.OverrideAppr proposalId signer proposal.approvals.entries.length b.threshold
    env.timestamp))

def executeOverride (self : Address) (env : TimedEnv) (caller : Address) (proposalId : Nat)
    (b : CircuitBreaker) : Res CircuitBreaker := do
  env.requireAuth caller
  let proposal ← b.readProposal proposalId
  ensure (proposal.status = .Active) (.breaker .ProposalNotActive)
  ensure (proposal.executableAfter ≤ env.timestamp) (.breaker .TimelockNotElapsed)
  let proposalTtl := u64.saturatingAdd proposal.executableAfter pauseDurationSeconds
  ensure (env.timestamp < proposalTtl) (.breaker .ProposalExpired)
  ensure (b.threshold ≤ proposal.approvals.entries.length) (.breaker .ThresholdNotMet)
  let b := b.applyOverride self env proposal.target
  let b := b.writeProposal { proposal with status := .Executed }
  pure (b.publish (.OverrideExec proposalId (describeTarget proposal.target) caller env.timestamp))

def cancelOverride (proposalId : Nat) (b : CircuitBreaker) : Res CircuitBreaker := do
  env.requireAuth caller
  let admin ← b.readAdmin
  env.requireAuth admin
  let proposal ← b.readProposal proposalId
  ensure (proposal.status = .Active) (.breaker .ProposalNotActive)
  let b := b.writeProposal { proposal with status := .Cancelled }
  pure (b.publish (.OverrideCanc proposalId caller env.timestamp))

/-! ### The question -/

def active (now : Nat) (expiry : Option Nat) : Bool := expiry.any fun e => decide (now < e)

/-- `is_blocked`: the answer, and the storage after the expired pauses it came across are gone. -/
def isBlocked (now : Nat) (contract : Address) (function : String) (b : CircuitBreaker) :
    Bool × CircuitBreaker :=
  if active now b.global then
    (true,b)
  else
    let b := { b with global := none }
    match b.state.lookup contract with
    | none => (false,b)
    | some inner =>
      if active now (inner.lookup contractWildcard) then
        (true,b)
      else
        let inner := inner.erase contractWildcard
        if active now (inner.lookup function) then
          (true,b)
        else
          let inner := inner.erase function
          let shouldRemoveContract := inner.entries.isEmpty
          let state := storePauses contract inner b.state
          if shouldRemoveContract || !state.entries.isEmpty then
            (false,{ b with state := state })
          else
            (false,b)

def expiry (b : CircuitBreaker) (contract : Address) (function : String) : Option Nat :=
  (b.state.lookup contract).bind fun inner => inner.lookup function

def Blocked (now : Nat) (contract : Address) (function : String) (b : CircuitBreaker) : Prop :=
  active now b.global ∨ active now (b.expiry contract contractWildcard) ∨
    active now (b.expiry contract function)

instance (now : Nat) (contract : Address) (function : String) (b : CircuitBreaker) :
    Decidable (b.Blocked now contract function) :=
  inferInstanceAs (Decidable (_ ∨ _ ∨ _))

def Cleaned (now : Nat) (before after : Option Nat) : Prop :=
  after = before ∨ after = none ∧ active now before = false

@[simp] lemma active_none (now) : active now none = false := rfl

lemma active_anti {now l} (h : now ≤ l) {o} (ho : active now o = false) : active l o = false := by
  cases o with
  | none => rfl
  | some =>
    simp only [active,Option.any_some,decide_eq_false_iff_not] at ho ⊢
    omega

lemma Cleaned.refl (now o) : Cleaned now o o := .inl rfl

lemma Cleaned.active_eq {now l o o'} (h : Cleaned now o o')
    (hl : now ≤ l) : active l o' = active l o := by
  obtain rfl | ⟨rfl,ho⟩ := h
  · rfl
  · exact (active_anti hl ho).symm

variable {now : Nat} {contract : Address} {function : String} {b : CircuitBreaker}

lemma cleaned_erase {key} {inn : Storage String Nat} (h : active now (inn.lookup key) = false)
    (name) : Cleaned now (inn.lookup name) ((inn.erase key).lookup name) := by
  obtain rfl | hk := eq_or_ne name key
  · exact .inr ⟨AList.lookup_erase _ _,h⟩
  · exact .inl (AList.lookup_erase_ne hk)

lemma Cleaned.trans {o o' o''} (h : Cleaned now o o') (h' : Cleaned now o' o'') :
    Cleaned now o o'' := by
  obtain rfl | ⟨rfl,ho⟩ := h
  · exact h'
  · obtain rfl | ⟨rfl,-⟩ := h' <;> exact .inr ⟨rfl,ho⟩

lemma lookup_storePauses_ne {c} (h : c ≠ contract) (inn state) :
    (storePauses contract inn state).lookup c = state.lookup c := by
  unfold storePauses
  split
  · exact AList.lookup_erase_ne h
  · exact AList.lookup_insert_ne h

lemma bind_lookup_storePauses (contract inn state name) :
    ((storePauses contract inn state).lookup contract).bind (fun i => i.lookup name) =
    inn.lookup name := by
  unfold storePauses
  split
  · next he =>
    have hn : inn.entries = [] := List.isEmpty_iff.mp he
    rw [AList.lookup_erase]
    simp [AList.lookup,hn]
  · rw [AList.lookup_insert]
    rfl

lemma expiry_clearPause {function name} (h : name ≠ function) (contract c)
    (b : CircuitBreaker) : (b.clearPause contract function).expiry c name = b.expiry c name := by
  unfold clearPause
  cases hn : b.state.lookup contract with
  | none => rfl
  | some =>
    obtain rfl | hc := eq_or_ne c contract
    · simp only [expiry,bind_lookup_storePauses,hn,Option.bind_some]
      exact AList.lookup_erase_ne h
    · simp only [expiry,lookup_storePauses_ne hc]

lemma blocked_clearPause {function name} (h : name ≠ function)
    (ha : contractWildcard ≠ function) (now contract c) (b : CircuitBreaker) :
    (b.clearPause contract function).Blocked now c name ↔ b.Blocked now c name := by
  have hg : (b.clearPause contract function).global = b.global := by
    unfold clearPause
    split <;> rfl
  simp only [Blocked,hg,expiry_clearPause h,expiry_clearPause ha]

lemma cleaned_isBlocked (now contract function) (b : CircuitBreaker) :
    Cleaned now b.global (b.isBlocked now contract function).2.global ∧ ∀ c name,
    Cleaned now (b.expiry c name) ((b.isBlocked now contract function).2.expiry c name) := by
  unfold isBlocked
  split
  · exact ⟨.refl _ _,fun _ _ => .refl _ _⟩
  · next hl =>
    have hg : Cleaned now b.global none := .inr ⟨rfl,by simpa using hl⟩
    simp only
    split
    · exact ⟨hg,fun _ _ => .refl _ _⟩
    · next inn hn =>
      split
      · exact ⟨hg,fun _ _ => .refl _ _⟩
      · next hw =>
        split
        · exact ⟨hg,fun _ _ => .refl _ _⟩
        · next hf =>
          have hb : ∀ name, Cleaned now (inn.lookup name)
              (((inn.erase contractWildcard).erase function).lookup name) := fun name =>
            (cleaned_erase (by simpa using hw) name).trans (cleaned_erase (by simpa using hf) name)
          split
          · refine ⟨hg,fun c name => ?_⟩
            unfold expiry
            obtain rfl | hc := eq_or_ne c contract
            · rw [hn,bind_lookup_storePauses]
              exact hb name
            · rw [lookup_storePauses_ne hc]
              exact .refl _ _
          · exact ⟨hg,fun _ _ => .refl _ _⟩

lemma isBlocked_iff (now contract function) (b : CircuitBreaker) :
    (b.isBlocked now contract function).1 = true ↔ b.Blocked now contract function := by
  unfold isBlocked Blocked expiry
  split
  · next hg => simp [hg]
  · next hg =>
    simp only
    split
    · next hi => simp [hg,hi]
    · next inner hi =>
      split
      · next hw => simp [hi,hw]
      · next hw =>
        -- the wildcard is gone when the function is looked up
        have hs : active now ((inner.erase contractWildcard).lookup function) =
            active now (inner.lookup function) :=
          (cleaned_erase (by simpa using hw) function).active_eq le_rfl
        rw [hs]
        split
        · next hn => simp [hi,hn]
        · next hn =>
          have hf : ¬ (active now b.global = true ∨
              active now ((some inner).bind fun i => i.lookup contractWildcard) = true ∨
                active now ((some inner).bind fun i => i.lookup function) = true) := by
            simp [hg,hw,hn]
          rw [hi]
          split <;> simp only [Bool.false_eq_true,hf]

end CircuitBreaker

end DukaPay
