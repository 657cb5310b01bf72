import DukaPay.CircuitBreaker.Defs

/-! The entry points of the breaker as one transactional system, what each of them does when it
returns, and the queries that read its storage. -/
namespace DukaPay
open Contractlib

abbrev PauseKey := Option (Address × String)

def OverrideTarget.key : OverrideTarget → PauseKey
  | .Global => none
  | .Contract contract => some (contract,CircuitBreaker.contractWildcard)
  | .Function contract function => some (contract,function)

def OverrideTarget.Proper : OverrideTarget → Prop
  | .Function _ function => function ≠ CircuitBreaker.contractWildcard
  | _ => True

instance : (target : OverrideTarget) → Decidable target.Proper
  | .Function _ _ => inferInstanceAs (Decidable (_ ≠ _))
  | .Global | .Contract _ => isTrue trivial

lemma OverrideTarget.Proper.eq_of_key {target target' : OverrideTarget} (h : target.Proper)
    (h' : target'.Proper) (hk : target.key = target'.key) : target = target' := by
  cases target with
  | Global =>
    cases target' with
    | Global => rfl
    | Contract _ | Function _ _ => cases hk
  | Contract =>
    cases target' with
    | Global => cases hk
    | Contract =>
      cases hk
      rfl
    | Function =>
      cases hk
      exact absurd rfl h'
  | Function =>
    cases target' with
    | Global => cases hk
    | Contract =>
      cases hk
      exact absurd rfl h
    | Function =>
      cases hk
      rfl

namespace CircuitBreaker

/-! ### Queries -/

variable (now : Nat)
variable (b : CircuitBreaker)

def isGloballyPaused : Bool := active now b.global

def isContractPaused (contract : Address) (b : CircuitBreaker) : Bool :=
  (b.state.lookup contract).any fun inner => active now (inner.lookup contractWildcard)

def isFunctionPaused (contract : Address) (function : String) (b : CircuitBreaker) : Bool :=
  (b.state.lookup contract).any fun inner =>
    active now (inner.lookup function) || active now (inner.lookup contractWildcard)

@[ext] structure PauseState where
  globalExpiresAt : Nat
  contractExpiries : Address → Option Nat
  functionExpiries : Address → Option (String → Option Nat)

def unexpired (expiry : Option Nat) : Option Nat :=
  expiry.filter fun e => decide (now < e)

def functionPauses (inner : Storage String Nat) (function : String) : Option Nat :=
  if function = contractWildcard then none else unexpired now (inner.lookup function)

def getPauseState : PauseState where
  globalExpiresAt := (unexpired now b.global).getD 0
  contractExpiries := fun contract =>
    (b.state.lookup contract).bind fun inner => unexpired now (inner.lookup contractWildcard)
  -- a contract without a paused function has no entry
  functionExpiries := fun contract =>
    (b.state.lookup contract).bind fun inner =>
      if inner.keys.any fun function => (functionPauses now inner function).isSome then
        some (functionPauses now inner)
      else none

@[ext] structure Answers where
  isBlocked : Address → String → Bool
  isGloballyPaused : Bool
  isContractPaused : Address → Bool
  isFunctionPaused : Address → String → Bool
  getPauseState : PauseState
  getAdmin : Res Address
  getSigners : List Address
  getThreshold : Nat
  getOverrideTimelock : Nat
  getProposal : Nat → Res OverrideProposal
  getOverrideCount : Nat

def answers : Answers where
  isBlocked := fun contract function => (b.isBlocked now contract function).1
  isGloballyPaused := b.isGloballyPaused now
  isContractPaused := fun contract => b.isContractPaused now contract
  isFunctionPaused := fun contract function => b.isFunctionPaused now contract function
  getPauseState := b.getPauseState now
  getAdmin := b.readAdmin
  getSigners := b.signers
  getThreshold := b.threshold
  getOverrideTimelock := b.overrideTimelock.getD defaultOverrideTimelock
  getProposal := fun proposalId => b.readProposal proposalId
  getOverrideCount := b.overrideCount

/-! ### Entries -/

def stored : PauseKey → Option Nat
  | none => b.global
  | some (contract,function) => b.expiry contract function

lemma stored_congr {b b' : CircuitBreaker} (hg : b'.global = b.global)
    (hs : b'.state = b.state) : b'.stored = b.stored := by
  funext k
  cases k with
  | none => exact hg
  | some => rw [stored,stored,expiry,expiry,hs]

lemma stored_publish (ev) (b : CircuitBreaker) (k) : (b.publish ev).stored k = b.stored k := by
  cases k <;> rfl

lemma stored_writeProposal (p) (b : CircuitBreaker) (k) :
    (b.writeProposal p).stored k = b.stored k := by
  cases k <;> rfl

variable (target : OverrideTarget)

/-- Store a pause of the target, as `pause_all`, `pause_contract` and `pause_function` do. -/
def pauseTarget (expiresAt : Nat) (b : CircuitBreaker) : CircuitBreaker :=
  match target with
  | .Global => { b with global := some expiresAt }
  | .Contract contract => b.setPause contract contractWildcard expiresAt
  | .Function contract function => b.setPause contract function expiresAt

variable (b : CircuitBreaker)

lemma expiry_setPause (con c f name exp) (b : CircuitBreaker) :
    (b.setPause con f exp).expiry c name =
    if some (c,name) = some (con,f) then some exp else b.expiry c name := by
  unfold expiry setPause
  obtain rfl | hc := eq_or_ne c con
  · rw [AList.lookup_insert,Option.bind_some]
    obtain rfl | hnm := eq_or_ne name f
    · rw [AList.lookup_insert,if_pos rfl]
    · rw [AList.lookup_insert_ne hnm,if_neg (by simp [hnm])]
      cases b.state.lookup c <;> rfl
  · rw [AList.lookup_insert_ne hc,if_neg (by simp [hc])]

lemma expiry_clearPause_eq (con c f name) (b : CircuitBreaker) :
    (b.clearPause con f).expiry c name =
    if some (c,name) = some (con,f) then none else b.expiry c name := by
  obtain rfl | hnm := eq_or_ne name f
  · obtain rfl | hc := eq_or_ne c con
    · rw [if_pos rfl]
      cases hn : b.state.lookup c with
      | none => simp only [clearPause,hn,expiry,Option.bind_none]
      | some =>
        simp only [clearPause,hn,expiry,bind_lookup_storePauses]
        exact AList.lookup_erase _ _
    rw [if_neg (by simp [hc])]
    cases hn : b.state.lookup con with
    | none => simp only [clearPause,hn]
    | some => simp only [clearPause,hn,expiry,lookup_storePauses_ne hc]
  · rw [expiry_clearPause hnm,if_neg (by simp [hnm])]

lemma global_clearPause (con f) (b : CircuitBreaker) : (b.clearPause con f).global = b.global := by
  unfold clearPause
  split <;> rfl

lemma stored_pauseTarget (exp) (b : CircuitBreaker) (k) :
    (b.pauseTarget target exp).stored k = if k = target.key then some exp else b.stored k := by
  cases target with
  | Global => cases k <;> rfl
  | Contract con =>
    cases k with
    | none => rfl
    | some key => exact expiry_setPause con key.1 contractWildcard key.2 exp b
  | Function con fn =>
    cases k with
    | none => rfl
    | some key => exact expiry_setPause con key.1 fn key.2 exp b

lemma stored_liftTarget (k) :
    (b.liftTarget target).stored k = if k = target.key then none else b.stored k := by
  cases target with
  | Global => cases k <;> rfl
  | Contract con =>
    cases k with
    | none => exact global_clearPause con contractWildcard b
    | some key => exact expiry_clearPause_eq con key.1 contractWildcard key.2 b
  | Function con fn =>
    cases k with
    | none => exact global_clearPause con fn b
    | some key => exact expiry_clearPause_eq con key.1 fn key.2 b

lemma stored_isBlocked (con f) (b : CircuitBreaker)
    (k) : Cleaned now (b.stored k) ((b.isBlocked now con f).2.stored k) := by
  obtain ⟨hg,he⟩ := cleaned_isBlocked now con f b
  cases k with
  | none => exact hg
  | some key => exact he key.1 key.2

def withPauses (global : Option Nat)
    (state : Storage Address (Storage String Nat)) : CircuitBreaker :=
  { b with global := global, state := state }

lemma pauseTarget_eq (exp) (b : CircuitBreaker) : b.pauseTarget target exp =
    b.withPauses (b.pauseTarget target exp).global (b.pauseTarget target exp).state := by
  cases target <;> rfl

lemma liftTarget_eq :
    b.liftTarget target = b.withPauses (b.liftTarget target).global (b.liftTarget target).state := by
  cases target with
  | Global => rfl
  | Contract _ | Function _ _ =>
    simp only [liftTarget,clearPause]
    split <;> rfl

lemma isBlocked_eq (con f) (b : CircuitBreaker) : (b.isBlocked now con f).2 =
    b.withPauses (b.isBlocked now con f).2.global (b.isBlocked now con f).2.state := by
  unfold isBlocked
  split
  · rfl
  simp only
  split
  · rfl
  split
  · rfl
  split
  · rfl
  · split <;> rfl

end CircuitBreaker

/-! ### Calls -/

inductive BreakerCall
  | initializeBreaker (admin : Address) (signers : List Address) (threshold overrideTimelock : Nat)
  | setAdmin (caller newAdmin : Address)
  | setSigners (caller : Address) (signers : List Address) (threshold : Nat)
  | setOverrideTimelock (caller : Address) (overrideTimelock : Nat)
  | pauseAll (caller : Address)
  | pauseContract (caller contract : Address)
  | pauseFunction (caller contract : Address) (function : String)
  | proposeOverride (proposer : Address) (target : OverrideTarget)
  | approveOverride (signer : Address) (proposalId : Nat)
  | executeOverride (caller : Address) (proposalId : Nat)
  | cancelOverride (caller : Address) (proposalId : Nat)
  | isBlocked (contract : Address) (function : String)

namespace BreakerCall
open CircuitBreaker

def exec (self : Address) (env : TimedEnv) (b : CircuitBreaker) : BreakerCall → Res CircuitBreaker
  | .initializeBreaker admin signers threshold overrideTimelock =>
    b.initializeBreaker admin signers threshold overrideTimelock
  | .setAdmin caller newAdmin => b.setAdmin env caller newAdmin
  | .setSigners caller signers threshold => b.setSigners env caller signers threshold
  | .setOverrideTimelock caller overrideTimelock =>
    b.setOverrideTimelock env caller overrideTimelock
  | .pauseAll caller => b.pauseAll env caller
  | .pauseContract caller contract => b.pauseContract env caller contract
  | .pauseFunction caller contract function => b.pauseFunction env caller contract function
  | .proposeOverride proposer target => do
    let (b,_) ← b.proposeOverride env proposer target
    pure b
  | .approveOverride signer proposalId => b.approveOverride env signer proposalId
  | .executeOverride caller proposalId => b.executeOverride self env caller proposalId
  | .cancelOverride caller proposalId => b.cancelOverride env caller proposalId
  | .isBlocked contract function => pure (b.isBlocked env.timestamp contract function).2

def pause (caller : Address) : OverrideTarget → BreakerCall
  | .Global => .pauseAll caller
  | .Contract contract => .pauseContract caller contract
  | .Function contract function => .pauseFunction caller contract function

def pausedTarget : BreakerCall → Option OverrideTarget
  | .pauseAll _ => some .Global
  | .pauseContract _ contract => some (.Contract contract)
  | .pauseFunction _ contract function => some (.Function contract function)
  | _ => none

def namedTarget : BreakerCall → Option OverrideTarget
  | .proposeOverride _ target => some target
  | c => c.pausedTarget

end BreakerCall

namespace CircuitBreaker

def newProposal (env : TimedEnv) (proposer : Address) (target : OverrideTarget)
    (b : CircuitBreaker) : OverrideProposal where
  id := b.overrideCount + 1
  target := target
  proposer := proposer
  proposedAt := env.timestamp
  executableAfter :=
    u64.saturatingAdd env.timestamp (b.overrideTimelock.getD defaultOverrideTimelock)
  approvals := ∅
  status := .Active

def proposalTtl (p : OverrideProposal) : Nat :=
  u64.saturatingAdd p.executableAfter pauseDurationSeconds

structure ByAdmin (env : TimedEnv) (caller : Address) (b : CircuitBreaker) : Prop where
  caller : env.Authorized caller
  admin : ∃ admin, b.admin = some admin ∧ env.Authorized admin

end CircuitBreaker

open CircuitBreaker in
variable (self : Address) (env : TimedEnv) (b : CircuitBreaker) in
inductive BreakerCall.Effect : BreakerCall → CircuitBreaker → Prop
  | initializeBreaker (admin : Address) (signers : List Address)
    (threshold overrideTimelock : Nat) (hnew : b.admin = none)
    (hvalid : validateSigners signers threshold = .ok ())
    (htimelock : minOverrideTimelock ≤ overrideTimelock) :
    Effect (.initializeBreaker admin signers threshold overrideTimelock)
      ({ b with
        admin := some admin
        signers := signers
        threshold := threshold
        overrideTimelock := some overrideTimelock
        overrideCount := 0
        state := ∅ }.publish (.BreakerInit admin signers.length threshold overrideTimelock))
  | setAdmin (caller newAdmin : Address) (hadmin : b.ByAdmin env caller) :
    Effect (.setAdmin caller newAdmin)
      ({ b with admin := some newAdmin }.publish (.BreakerAdmin caller newAdmin))
  | setSigners (caller : Address) (signers : List Address) (threshold : Nat)
    (hadmin : b.ByAdmin env caller) (hvalid : validateSigners signers threshold = .ok ()) :
    Effect (.setSigners caller signers threshold)
      { b with signers := signers, threshold := threshold }
  | setOverrideTimelock (caller : Address) (overrideTimelock : Nat)
    (hadmin : b.ByAdmin env caller) (htimelock : minOverrideTimelock ≤ overrideTimelock) :
    Effect (.setOverrideTimelock caller overrideTimelock)
      { b with overrideTimelock := some overrideTimelock }
  | pause (caller : Address) (target : OverrideTarget) (hauth : env.Authorized caller)
    (hsigner : caller ∈ b.signers) :
    Effect (.pause caller target)
      ((b.pauseTarget target (pauseExpiry env)).publish
        (.Paused (describeTarget target) caller (pauseExpiry env) env.timestamp))
  | proposeOverride (proposer : Address) (target : OverrideTarget)
    (hauth : env.Authorized proposer) (hsigner : proposer ∈ b.signers)
    (hid : b.overrideCount + 1 ≤ u32.hi) :
    Effect (.proposeOverride proposer target)
      (({ b with overrideCount := b.overrideCount + 1 }.writeProposal
        (b.newProposal env proposer target)).publish
        (.OverrideProp (b.overrideCount + 1) (describeTarget target) proposer
          (b.newProposal env proposer target).executableAfter env.timestamp))
  | approveOverride (signer : Address) (proposalId : Nat) (p : OverrideProposal)
    (hauth : env.Authorized signer) (hsigner : signer ∈ b.signers)
    (hp : b.overrides.lookup proposalId = some p) (hactive : p.status = .Active)
    (hnew : (p.approvals.lookup signer).getD false = false) :
    Effect (.approveOverride signer proposalId)
      ((b.writeProposal { p with approvals := p.approvals.insert signer true }).publish
        (.OverrideAppr proposalId signer (p.approvals.insert signer true).entries.length
          b.threshold env.timestamp))
  | executeOverride (caller : Address) (proposalId : Nat) (p : OverrideProposal)
    (hauth : env.Authorized caller) (hp : b.overrides.lookup proposalId = some p)
    (hactive : p.status = .Active) (htimelock : p.executableAfter ≤ env.timestamp)
    (httl : env.timestamp < proposalTtl p) (hcount : b.threshold ≤ p.approvals.entries.length) :
    Effect (.executeOverride caller proposalId)
      ((((b.liftTarget p.target).publish
          (.Lifted (describeTarget p.target) self env.timestamp)).writeProposal
        { p with status := .Executed }).publish
          (.OverrideExec proposalId (describeTarget p.target) caller env.timestamp))
  | cancelOverride (caller : Address) (proposalId : Nat) (p : OverrideProposal)
    (hadmin : b.ByAdmin env caller) (hp : b.overrides.lookup proposalId = some p)
    (hactive : p.status = .Active) :
    Effect (.cancelOverride caller proposalId)
      ((b.writeProposal { p with status := .Cancelled }).publish
        (.OverrideCanc proposalId caller env.timestamp))
  | isBlocked (contract : Address) (function : String) : Effect (.isBlocked contract function)
      (b.isBlocked env.timestamp contract function).2

structure BreakerInvocation where
  env : TimedEnv
  call : BreakerCall

abbrev BreakerInvocation.time (i : BreakerInvocation) : Nat := i.env.timestamp

def breakerSystem (self : Address) : Transactional CircuitBreaker BreakerInvocation Fault where
  exec := fun i b => i.call.exec self i.env b

namespace BreakerCall
open CircuitBreaker
variable {self : Address} {env : TimedEnv} {b b' : CircuitBreaker} {c : BreakerCall}

lemma trip_eq_ok {cl scope store} :
    trip env cl scope store b = .ok b' ↔ env.Authorized cl ∧ cl ∈ b.signers ∧
    (store (pauseExpiry env) b).publish
    (.Paused scope cl (pauseExpiry env) env.timestamp) = b' := by
  simp only [trip,requireSigner,eq_ok]

lemma executeOverride_eq_ok {cl id} :
    b.executeOverride self env cl id = .ok b' ↔ env.Authorized cl ∧
    ∃ p, b.overrides.lookup id = some p ∧ p.status = .Active ∧
    p.executableAfter ≤ env.timestamp ∧ env.timestamp < proposalTtl p ∧
    b.threshold ≤ p.approvals.entries.length ∧ (((b.liftTarget p.target).publish
    (.Lifted (describeTarget p.target) self env.timestamp)).writeProposal
    { p with status := .Executed }).publish
                (.OverrideExec id (describeTarget p.target) cl env.timestamp) =
              b' := by
  simp only [CircuitBreaker.executeOverride,readProposal,eq_ok]
  rfl

lemma effect_of_ok (h : c.exec self env b = .ok b') : c.Effect self env b b' := by
  cases c with
  | initializeBreaker adm sgs thr lock =>
    simp only [exec,CircuitBreaker.initializeBreaker,eq_ok] at h
    obtain ⟨hn,hv,ht,rfl⟩ := h
    exact .initializeBreaker adm sgs thr lock hn hv ht
  | setAdmin clr na =>
    simp only [exec,CircuitBreaker.setAdmin,readAdmin,eq_ok] at h
    obtain ⟨ha,adm,had,hs,rfl⟩ := h
    exact .setAdmin clr na ⟨ha,adm,had,hs⟩
  | setSigners clr sgs thr =>
    simp only [exec,CircuitBreaker.setSigners,readAdmin,eq_ok] at h
    obtain ⟨ha,adm,had,hs,hv,rfl⟩ := h
    exact .setSigners clr sgs thr ⟨ha,adm,had,hs⟩ hv
  | setOverrideTimelock clr lock =>
    simp only [exec,CircuitBreaker.setOverrideTimelock,readAdmin,eq_ok] at h
    obtain ⟨ha,adm,had,hs,ht,rfl⟩ := h
    exact .setOverrideTimelock clr lock ⟨ha,adm,had,hs⟩ ht
  | pauseAll clr =>
    simp only [exec,CircuitBreaker.pauseAll,trip_eq_ok] at h
    obtain ⟨ha,hsi,rfl⟩ := h
    exact .pause clr .Global ha hsi
  | pauseContract clr con =>
    simp only [exec,CircuitBreaker.pauseContract,trip_eq_ok] at h
    obtain ⟨ha,hsi,rfl⟩ := h
    exact .pause clr (.Contract con) ha hsi
  | pauseFunction clr con fn =>
    simp only [exec,CircuitBreaker.pauseFunction,trip_eq_ok] at h
    obtain ⟨ha,hsi,rfl⟩ := h
    exact .pause clr (.Function con fn) ha hsi
  | proposeOverride prp target =>
    simp only [exec,CircuitBreaker.proposeOverride,requireSigner,eq_ok] at h
    obtain ⟨_,⟨ha,hsi,_,⟨hi,rfl⟩,rfl⟩,rfl⟩ := h
    exact .proposeOverride prp target ha hsi hi
  | approveOverride sgn pid =>
    simp only [exec,CircuitBreaker.approveOverride,requireSigner,readProposal,eq_ok] at h
    obtain ⟨ha,hsi,p,hp,hac,hn,rfl⟩ := h
    exact .approveOverride sgn pid p ha hsi hp hac hn
  | executeOverride clr pid =>
    rw [exec,executeOverride_eq_ok] at h
    obtain ⟨ha,p,hp,hac,ht,htt,hc,rfl⟩ := h
    exact .executeOverride clr pid p ha hp hac ht htt hc
  | cancelOverride clr pid =>
    simp only [exec,CircuitBreaker.cancelOverride,readAdmin,readProposal,eq_ok] at h
    obtain ⟨ha,adm,had,hs,p,hp,hac,rfl⟩ := h
    exact .cancelOverride clr pid p ⟨ha,adm,had,hs⟩ hp hac
  | isBlocked con fn =>
    cases h
    exact .isBlocked con fn

lemma Effect.ok (h : c.Effect self env b b') : c.exec self env b = .ok b' := by
  cases h with
  | initializeBreaker _ _ _ _ hn hv ht =>
    simp only [exec,CircuitBreaker.initializeBreaker,eq_ok]
    exact ⟨hn,hv,ht,trivial⟩
  | setAdmin _ _ ha =>
    obtain ⟨hau,adm,ha,hs⟩ := ha
    simp only [exec,CircuitBreaker.setAdmin,readAdmin,eq_ok]
    exact ⟨hau,adm,ha,hs,trivial⟩
  | setSigners _ _ _ ha hv =>
    obtain ⟨hau,adm,ha,hs⟩ := ha
    simp only [exec,CircuitBreaker.setSigners,readAdmin,eq_ok]
    exact ⟨hau,adm,ha,hs,hv,trivial⟩
  | setOverrideTimelock _ _ ha ht =>
    obtain ⟨hau,adm,ha,hs⟩ := ha
    simp only [exec,CircuitBreaker.setOverrideTimelock,readAdmin,eq_ok]
    exact ⟨hau,adm,ha,hs,ht,trivial⟩
  | pause _ target hau hsi =>
    cases target with
    | Global =>
      simp only [BreakerCall.pause,exec,CircuitBreaker.pauseAll,trip_eq_ok]
      exact ⟨hau,hsi,rfl⟩
    | Contract =>
      simp only [BreakerCall.pause,exec,CircuitBreaker.pauseContract,trip_eq_ok]
      exact ⟨hau,hsi,rfl⟩
    | Function =>
      simp only [BreakerCall.pause,exec,CircuitBreaker.pauseFunction,trip_eq_ok]
      exact ⟨hau,hsi,rfl⟩
  | proposeOverride _ _ hau hsi hi =>
    simp only [exec,CircuitBreaker.proposeOverride,requireSigner,eq_ok]
    exact ⟨_,⟨hau,hsi,_,⟨hi,rfl⟩,rfl⟩,rfl⟩
  | approveOverride _ _ p hau hsi hp hac hn =>
    simp only [exec,CircuitBreaker.approveOverride,requireSigner,readProposal,eq_ok]
    exact ⟨hau,hsi,p,hp,hac,hn,rfl⟩
  | executeOverride _ _ p hau hp hac ht htt hc =>
    rw [exec,executeOverride_eq_ok]
    exact ⟨hau,p,hp,hac,ht,htt,hc,rfl⟩
  | cancelOverride _ _ p ha hp hac =>
    obtain ⟨hau,adm,ha,hs⟩ := ha
    simp only [exec,CircuitBreaker.cancelOverride,readAdmin,readProposal,eq_ok]
    exact ⟨hau,adm,ha,hs,p,hp,hac,rfl⟩
  | isBlocked => rfl

end BreakerCall

namespace CircuitBreaker

def Blank (b : CircuitBreaker) : Prop := b.admin = none → b = empty

lemma Blank.step {self env} {c : BreakerCall} {b b' : CircuitBreaker}
    (h : b.Blank) (hc : c.Effect self env b b') : b'.Blank := by
  intro ha'
  cases hc with
  | initializeBreaker | setAdmin => cases ha'
  | setSigners _ _ _ ha | setOverrideTimelock _ _ ha | cancelOverride _ _ _ ha =>
    obtain ⟨-,_,ha,-⟩ := ha
    exact absurd (ha.symm.trans ha') nofun
  | pause clr target hau hs =>
    have hn : b.admin = none := by
      rw [pauseTarget_eq] at ha'
      exact ha'
    rw [h hn] at hs
    cases hs
  | proposeOverride _ _ _ hs =>
    rw [h ha'] at hs
    cases hs
  | approveOverride _ _ _ _ hs =>
    rw [h ha'] at hs
    cases hs
  | executeOverride clr pid p hau hp =>
    have hn : b.admin = none := by
      rw [liftTarget_eq] at ha'
      exact ha'
    rw [h hn] at hp
    cases hp
  | isBlocked =>
    have hn : b.admin = none := by
      rw [isBlocked_eq] at ha'
      exact ha'
    rw [h hn]
    rfl

end CircuitBreaker

end DukaPay
