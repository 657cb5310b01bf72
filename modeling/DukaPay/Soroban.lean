import DukaPay.Contractlib.Checked
import DukaPay.Contractlib.Outcome
import Mathlib.Algebra.Order.Ring.Int
import Mathlib.Algebra.Order.BigOperators.Group.List

/-! What a contract call sees of the chain: who authorised it, its ledger, the answers of the
contracts it consults, and the token contracts. -/
namespace DukaPay
open Contractlib List

structure Address where
  id : Nat
  deriving DecidableEq

abbrev Bytes32 := BitVec 256

inductive PoolError
  | AlreadyInitialized
  | NotInitialized
  | ContractPaused
  | InvalidAmount
  | PoolSizeExceeded
  | InsufficientBalance
  | InsufficientLiquidity
  | InvalidMaxPoolSize
  | NoProposedAdmin
  | CooldownTooLong
  | MinSharesNotMet
  | MinAssetsNotMet
  | ZeroShares
  | CommitmentNotFound
  | CommitmentTooEarly
  | CommitmentExpired
  | InvalidCommitmentHash
  | CallDepthExceeded
  | ReentrancyGuardTriggered
  | CircuitBreakerTripped
  | Unauthorized
  deriving DecidableEq

inductive LoanError
  | AlreadyInitialized
  | NotInitialized
  | LoanNotFound
  | InsufficientScore
  | LoanNotPending
  | LoanNotActive
  | InvalidAmount
  | MaxLoansReached
  | ContractPaused
  | InsufficientPoolLiquidity
  | LoanNotRepaid
  | LoanNotPastDue
  | RepaymentExceedsDebt
  | BorrowerMismatch
  | InvalidRate
  | InvalidTerm
  | LoanPastDue
  | NoProposedAdmin
  | PoolPaused
  | NftPaused
  | InvalidConfiguration
  | SeizedBorrower
  | AmountTooLarge
  | MaxExtensionsReached
  | InvalidExtension
  | InsufficientCollateral
  | LoanNotLiquidatable
  | LoanNotPurgable
  | CircuitBreakerTripped
  | ReentrancyGuardTriggered
  deriving DecidableEq

inductive VaultError
  | AlreadyInitialized
  | NotInitialized
  | Unauthorized
  | AgentNotFound
  | InvalidAmount
  | InsufficientCollateral
  | InsufficientFloat
  | SolvencyViolated
  | InvalidHaircut
  | InvalidParams
  | MinCollateralViolated
  | NetNotZero
  | BatchTooLarge
  | CircuitBreakerTripped
  deriving DecidableEq

inductive OracleError
  | NotInitialized
  | UnauthorizedSource
  | InsufficientSources
  | StalePrice
  | CircuitBroken
  | ZeroPrice
  | ContractPaused
  | CircuitBreakerTripped
  | Unauthorized
  | NoPendingAdmin
  | AdminTimelockNotElapsed
  deriving DecidableEq

inductive CircuitBreakerError
  | AlreadyInitialized
  | NotInitialized
  | Unauthorized
  | SignerNotAllowed
  | ThresholdTooLow
  | ThresholdExceedsSigners
  | TooManySigners
  | DuplicateSigner
  | EmptySignerList
  | TimelockTooShort
  | ProposalNotFound
  | ProposalNotActive
  | ProposalExpired
  | TimelockNotElapsed
  | ThresholdNotMet
  | AlreadyApproved
  deriving DecidableEq

inductive GovernanceError
  | AlreadyInitialized
  | NotInitialized
  | TargetNotSet
  | NoPendingTransfer
  | TransferAlreadyPending
  | ThresholdExceedsSignerCount
  | ThresholdTooLow
  | TooManySigners
  | SignerNotAllowed
  | TimelockNotElapsed
  | ThresholdNotMet
  | DelayTooShort
  | EmptySignerList
  | ReproposalCooldownActive
  | ProposalExpired
  | ProposalNotExpired
  | ProposalIdMismatch
  | ProposalNotActive
  | DuplicateSigner
  | UpgradeGovernanceNotConfigured
  | UpgradeAlreadyPending
  | NoPendingUpgrade
  | UpgradeTimelockNotElapsed
  | UpgradeThresholdNotMet
  | UpgradeExpired
  | UpgradesPaused
  | NotUpgradeSigner
  | InvalidUpgradeThreshold
  | TooManyUpgradeSigners
  | InvalidUpgradeTarget
  deriving DecidableEq

inductive NftError
  | AlreadyInitialized
  | NotInitialized
  | UnauthorizedMinter
  | NftAlreadyExists
  | BurnedRequiresApproval
  | NftNotFound
  | InvalidRepaymentAmount
  | CollateralAlreadySeized
  | SelfTransfer
  | DestinationOccupied
  | TransferCooldownActive
  | InvalidThreshold
  | ContractPaused
  | InvalidHistoryHash
  | NoProposedAdmin
  | RemintNotApproved
  | BelowMinimum
  | InvalidMetadataUri
  | MinterLimitReached
  | CommitmentMalformed
  | CommitmentMissing
  | InvalidAmount
  deriving DecidableEq

inductive Fault
  | pool (e : PoolError)
  | loan (e : LoanError)
  | vault (e : VaultError)
  | oracle (e : OracleError)
  | breaker (e : CircuitBreakerError)
  | governance (e : GovernanceError)
  | nft (e : NftError)
  | panic (msg : String)
  | unauthorized (a : Address)
  | token
  | foreign
  deriving DecidableEq

abbrev Res := Except Fault

def expect {α : Type} (o : Option α) (msg : String) : Res α := orFail o (.panic msg)

@[simp] lemma expect_eq_ok {α : Type} {o : Option α} {msg : String} {a : α} :
    expect o msg = .ok a ↔ o = some a :=
  orFail_eq_ok

structure Transfer where
  token : Address
  src : Address
  dst : Address
  amount : Int
  invoker : Option Address

structure NftClient where
  isAuthorizedMinter : Address → Bool
  getScore : Address → Nat
  isSeized : Address → Bool
  isPaused : Bool
  decreaseScore : Address → Nat → Bool
  applyScoreDelta : Address → Int → Bool
  recordDefault : Address → Bool

structure Env where
  sequence : Nat
  invoker : Option Address
  signed : Address → Bool
  isBlocked : Address → Address → String → Bool
  nft : NftClient
  getRate : Address → Address → Int → Nat → Option Nat
  getPrice : Address → Address → Option Int
  accepts : Transfer → Bool

namespace Env

def calledBy (env : Env) (contract : Address) : Env := { env with invoker := some contract }

def Authorized (env : Env) (a : Address) : Prop := env.invoker = some a ∨ env.signed a = true

instance (env : Env) (a : Address) : Decidable (env.Authorized a) :=
  inferInstanceAs (Decidable (_ ∨ _))

def requireAuth (env : Env) (a : Address) : Res Unit := ensure (env.Authorized a) (.unauthorized a)

@[simp] lemma requireAuth_eq_ok {env : Env} {a u} : env.requireAuth a = .ok u ↔ env.Authorized a :=
  ensure_eq_ok

end Env

/-- What the steps of a successful call say, as one set of rules. -/
lemma eq_ok : (∀ {α β : Type} {x : Res α} {f : α → Res β} {b : β},
    (x >>= f) = .ok b ↔ ∃ a, x = .ok a ∧ f a = .ok b) ∧
    (∀ {α : Type} {a b : α}, (pure a : Res α) = .ok b ↔ a = b) ∧
    (∀ {p : Prop} [Decidable p] {e : Fault} {u : Unit}, ensure p e = .ok u ↔ p) ∧
    (∀ {α : Type} {o : Option α} {e : Fault} {a : α}, orFail o e = .ok a ↔ o = some a) ∧
    (∀ {α : Type} {o : Option α} {msg : String} {a : α}, expect o msg = .ok a ↔ o = some a) ∧
    (∀ {env : Env} {a : Address} {u : Unit}, env.requireAuth a = .ok u ↔ env.Authorized a) ∧
    (∀ {p : Unit → Prop}, (∃ u, p u) ↔ p ()) ∧
    (∀ {T : IntType} {x y z : Int}, T.checkedAdd x y = some z ↔ T.Fits (x + y) ∧ x + y = z) ∧
    (∀ {T : IntType} {x y z : Int}, T.checkedSub x y = some z ↔ T.Fits (x - y) ∧ x - y = z) ∧
    (∀ {T : IntType} {x y z : Int}, T.checkedMul x y = some z ↔ T.Fits (x * y) ∧ x * y = z) ∧
    ∀ {T : NatType} {m n k : Nat}, T.checkedAdd m n = some k ↔ m + n ≤ T.hi ∧ m + n = k :=
  ⟨bind_eq_ok,pure_eq_ok,ensure_eq_ok,orFail_eq_ok,expect_eq_ok,Env.requireAuth_eq_ok,
    Unique.exists_iff,IntType.checkedAdd_eq_some,IntType.checkedSub_eq_some,
    IntType.checkedMul_eq_some,NatType.checkedAdd_eq_some⟩

structure TimedEnv extends Env where
  timestamp : Nat

/-- The balances held in tokens, `balance token holder`, with the transfers made so far, the latest
first. -/
structure Bank where
  balance : Address → Address → Int
  log : List Transfer
  nonneg : ∀ token holder, 0 ≤ balance token holder
  log_nonneg : ∀ x ∈ log, 0 ≤ x.amount

namespace Bank

def delta (x : Transfer) (token holder : Address) : Int :=
  if token = x.token then
    (if holder = x.dst then x.amount else 0) - (if holder = x.src then x.amount else 0)
  else 0

def book (b : Bank) (x : Transfer) (h0 : 0 ≤ x.amount)
    (hx : x.amount ≤ b.balance x.token x.src) : Bank where
  balance := fun token holder => b.balance token holder + delta x token holder
  log := x :: b.log
  log_nonneg := by
    intro y hy
    rcases List.mem_cons.mp hy with rfl | hy
    · exact h0
    · exact b.log_nonneg y hy
  nonneg := by
    intro token holder
    have h := b.nonneg token holder
    unfold delta
    split
    · next ht =>
      subst ht
      obtain rfl | hs := eq_or_ne holder x.src
      · split <;> simp <;> omega
      · simp only [hs,if_false]
        split <;> omega
    · omega

def transfer (env : Env) (x : Transfer) (b : Bank) : Res Bank := do
  ensure (x.invoker = some x.src ∨ env.signed x.src = true) (.unauthorized x.src)
  ensure (env.accepts x = true) .token
  if h : 0 ≤ x.amount ∧ x.amount ≤ b.balance x.token x.src then
    .ok (b.book x h.1 h.2)
  else
    .error .token

structure Moved (x : Transfer) (b b' : Bank) : Prop where
  amount_nonneg : 0 ≤ x.amount
  covered : x.amount ≤ b.balance x.token x.src
  balance : ∀ token holder, b'.balance token holder = b.balance token holder + delta x token holder
  log : b'.log = x :: b.log

lemma moved_of_transfer {env x} {b b' : Bank} (h : b.transfer env x = .ok b') : Moved x b b' := by
  simp only [transfer,bind_eq_ok,ensure_eq_ok,exists_const] at h
  obtain ⟨-,-,h⟩ := h
  split at h
  · next hc =>
    cases h
    exact ⟨hc.1,hc.2,fun _ _ => rfl,rfl⟩
  · cases h

lemma signed_of_transfer {env x} {b b' : Bank}
    (h : b.transfer env x = .ok b') : x.invoker = some x.src ∨ env.signed x.src = true := by
  simp only [transfer,bind_eq_ok,ensure_eq_ok,exists_const] at h
  exact h.1

def total (p : Transfer → Bool) (b : Bank) : Int :=
  ((b.log.filter p).map Transfer.amount).sum

lemma total_nonneg (p) (b : Bank) : 0 ≤ b.total p := by
  apply sum_nonneg
  intro amt ha
  obtain ⟨x,hx,rfl⟩ := mem_map.mp ha
  exact b.log_nonneg x (mem_of_mem_filter hx)

lemma Moved.total_eq {x b b'} (h : Moved x b b') (p) :
    b'.total p = b.total p + if p x then x.amount else 0 := by
  unfold total
  rw [h.log,filter_cons]
  split
  · simp [add_comm]
  · simp

end Bank

def Env.small (ledger : Nat) : Env where
  sequence := ledger
  invoker := none
  signed := fun a => decide (a ≠ ⟨1⟩ ∧ a ≠ ⟨2⟩)
  isBlocked := fun _ _ _ => false
  nft :=
    { isAuthorizedMinter := fun _ => true
      getScore := fun _ => 700
      isSeized := fun _ => false
      isPaused := false
      decreaseScore := fun _ _ => true
      applyScoreDelta := fun _ _ => true
      recordDefault := fun _ => true }
  getRate := fun _ _ _ _ => none
  getPrice := fun _ _ => none
  accepts := fun _ => true

def TimedEnv.smallAt (timestamp : Nat) : TimedEnv := { Env.small 1 with timestamp := timestamp }

def Bank.small : Bank where
  balance := fun _ holder => if holder = ⟨5⟩ ∨ holder = ⟨6⟩ then 1000000 else 0
  log := []
  nonneg := by
    intro _ holder
    show 0 ≤ if holder = ⟨5⟩ ∨ holder = ⟨6⟩ then (1000000 : Int) else 0
    split <;> decide
  log_nonneg := nofun

end DukaPay
