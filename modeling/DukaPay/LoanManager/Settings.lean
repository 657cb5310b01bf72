import DukaPay.LoanManager.Operations

/-! The entry points of the admin, which change settings and publish events. -/
namespace DukaPay
open Contractlib Option

/-- The approval or the default that an event tells of. -/
def LoanEvent.announced : LoanEvent → Option (LoanStatus × Nat)
  | .LoanApproved loanId _ _ _ => some (.Approved,loanId)
  | .LoanDefaulted loanId _ => some (.Defaulted,loanId)
  | _ => none

namespace LoanManager
variable (env : Env)

def configure (notInitialized : Fault) (before after : Res Unit)
    (update : Settings → Settings) (events : Address → List LoanEvent) (m : LoanManager) :
    Res LoanManager := do
  before
  let admin ← orFail m.admin notInitialized
  env.requireAuth admin
  after
  pure ((events admin).foldl (fun m e => m.publish env e)
    { m with toSettings := update m.toSettings })

def notInitializedPanic : Fault := .panic "not initialized"

def notInitializedError : Fault := .loan .NotInitialized

def setCircuitBreaker (breaker : Option Address) : LoanManager → Res LoanManager :=
  configure env notInitializedPanic (pure ()) (pure ())
    (fun s => { s with circuitBreaker := breaker })
    (fun _ => [.AddressUpdated "LoanCircuitBreakerSet" none breaker])

def validateLateFeeRate (rateBps : Nat) : Res Unit :=
  ensure (rateBps ≤ Settings.maxLateFeeCapBps) (.loan .InvalidRate)

def validateLiquidationThreshold (ratioBps : Nat) : Res Unit :=
  ensure (Settings.minCollateralRatioBps ≤ ratioBps) (.loan .InvalidConfiguration)

def validateLiquidationBonusBps (bonusBps : Nat) : Res Unit :=
  ensure (bonusBps ≤ Settings.maxLiquidationBonusBps) (.loan .InvalidConfiguration)

def setLateFeeRate (rateBps : Nat) (m : LoanManager) : Res LoanManager :=
  m.configure env notInitializedPanic (validateLateFeeRate rateBps) (pure ())
    (fun s => { s with lateFeeRateBps := some rateBps })
    (fun admin => [.SettingUpdated "LateFeeRateUpdated" admin m.readLateFeeRateBps rateBps])

def setLiquidationThreshold (ratioBps : Nat) (m : LoanManager) : Res LoanManager :=
  m.configure env notInitializedPanic (validateLiquidationThreshold ratioBps) (pure ())
    (fun s => { s with liquidationThresholdBps := some ratioBps })
    (fun _ => [.SettingUpdated "LiquidationThresholdUpdated" none m.readLiquidationThresholdBps
      ratioBps])

def setLiquidationBonusBps (bonusBps : Nat) (m : LoanManager) : Res LoanManager :=
  m.configure env notInitializedPanic (validateLiquidationBonusBps bonusBps) (pure ())
    (fun s => { s with liquidationBonusBps := some bonusBps })
    (fun _ => [.SettingUpdated "LiquidationBonusBpsUpdated" none m.readLiquidationBonusBps
      bonusBps])

def setGracePeriodLedgers (ledgers : Nat) (m : LoanManager) : Res LoanManager :=
  m.configure env notInitializedPanic (pure ())
    (ensure (ledgers ≤ m.readDefaultWindowLedgers) (.loan .InvalidConfiguration))
    (fun s => { s with gracePeriodLedgers := some ledgers })
    (fun admin => [.SettingUpdated "GracePeriodUpdated" admin m.readGracePeriodLedgers ledgers])

def minDefaultWindow : Nat := 100

def setDefaultWindowLedgers (ledgers : Nat) (m : LoanManager) : Res LoanManager :=
  m.configure env notInitializedError
    (ensure (minDefaultWindow ≤ ledgers) (.loan .InvalidConfiguration))
    (ensure (m.readGracePeriodLedgers ≤ ledgers) (.loan .InvalidConfiguration))
    (fun s => { s with defaultWindowLedgers := some ledgers })
    (fun admin => [.SettingUpdated "DefaultWindowUpdated" admin m.readDefaultWindowLedgers ledgers])

def setMinScore (minScore : Nat) (m : LoanManager) : Res LoanManager :=
  m.configure env notInitializedPanic
    (ensure (minScore ≤ Settings.nftMaxScore) (.loan .InvalidConfiguration)) (pure ())
    (fun s => { s with minScore := some minScore })
    (fun admin => [.SettingUpdated "MinScoreUpdated" admin m.readMinScore minScore])

def setMaxLoanAmount (amount : Int) (m : LoanManager) : Res LoanManager :=
  m.configure env notInitializedError (ensure (0 < amount) (.loan .InvalidAmount)) (pure ())
    (fun s => { s with maxLoanAmount := some amount })
    (fun admin => [.SettingUpdated "MaxLoanAmountUpdated" admin m.readMaxLoanAmount amount])

def setMinRepaymentAmount (amount : Int) (m : LoanManager) : Res LoanManager :=
  m.configure env notInitializedPanic (ensure (0 ≤ amount) (.loan .InvalidAmount)) (pure ())
    (fun s => { s with minRepaymentAmount := some amount })
    (fun admin => [.SettingUpdated "MinRepaymentUpdated" admin m.readMinRepaymentAmount amount])

def setMaxLoansPerBorrower (maxLoans : Nat) (m : LoanManager) : Res LoanManager :=
  m.configure env notInitializedError (ensure (maxLoans ≠ 0) (.loan .InvalidAmount)) (pure ())
    (fun s => { s with maxLoansPerBorrower := some maxLoans })
    (fun admin => [.SettingUpdated "MaxLoansPerBorrower" admin m.readMaxLoansPerBorrower maxLoans])

def setInterestRate (rateBps : Nat) (m : LoanManager) : Res LoanManager :=
  m.configure env notInitializedPanic (pure ()) (ensure (rateBps ≠ 0) (.loan .InvalidRate))
    (fun s => { s with interestRateBps := some rateBps })
    (fun _ => [.SettingUpdated "InterestRateUpdated" none m.readInterestRate rateBps])

def setRateOracle (rateOracle : Address) (m : LoanManager) : Res LoanManager :=
  m.configure env notInitializedPanic (pure ()) (pure ())
    (fun s => { s with rateOracle := some rateOracle })
    (fun _ => [.AddressUpdated "RateOracleUpdated" m.rateOracle rateOracle])

def setPriceOracle (priceOracle : Address) (m : LoanManager) : Res LoanManager :=
  m.configure env notInitializedPanic (pure ()) (pure ())
    (fun s => { s with priceOracle := some priceOracle })
    (fun _ => [.AddressUpdated "PriceOracleUpdated" m.priceOracle priceOracle])

def setCollateralToken (collateralToken : Address) (m : LoanManager) : Res LoanManager :=
  m.configure env notInitializedPanic (pure ()) (pure ())
    (fun s => { s with collateralToken := some collateralToken })
    (fun _ => [.AddressUpdated "CollateralTokenUpdated" m.collateralToken collateralToken])

def setMinRateBps (minRate : Nat) (m : LoanManager) : Res LoanManager :=
  m.configure env notInitializedPanic (pure ())
    (do ensure (minRate ≠ 0) (.loan .InvalidRate)
        ensure (minRate ≤ m.readMaxRateBps) (.loan .InvalidConfiguration))
    (fun s => { s with minRateBps := some minRate })
    (fun admin => [.SettingUpdated "MinRateBpsUpdated" admin m.readMinRateBps minRate])

def setMaxRateBps (maxRate : Nat) (m : LoanManager) : Res LoanManager :=
  m.configure env notInitializedPanic (pure ())
    (do ensure (maxRate ≠ 0) (.loan .InvalidRate)
        ensure (m.readMinRateBps ≤ maxRate) (.loan .InvalidConfiguration))
    (fun s => { s with maxRateBps := some maxRate })
    (fun admin => [.SettingUpdated "MaxRateBpsUpdated" admin m.readMaxRateBps maxRate])

def setDefaultTerm (ledgers : Nat) (m : LoanManager) : Res LoanManager :=
  m.configure env notInitializedPanic (pure ()) (ensure (ledgers ≠ 0) (.loan .InvalidTerm))
    (fun s => { s with defaultTermLedgers := some ledgers })
    (fun _ => [.SettingUpdated "DefaultTermUpdated" none m.readDefaultTerm ledgers])

def setMinTermLedgers (minTerm : Nat) (m : LoanManager) : Res LoanManager :=
  let maxTerm := m.maxTermLedgers.getD u32.hi
  m.configure env notInitializedPanic
    (do ensure (minTerm ≠ 0) (.loan .InvalidTerm)
        ensure (minTerm ≤ maxTerm) (.loan .InvalidTerm))
    (pure ())
    (fun s => { s with minTermLedgers := some minTerm })
    (fun _ => [.SettingUpdated "TermLimitsUpdated" none minTerm maxTerm])

def setMaxTermLedgers (maxTerm : Nat) (m : LoanManager) : Res LoanManager :=
  let minTerm := m.minTermLedgers.getD 0
  m.configure env notInitializedPanic
    (do ensure (maxTerm ≠ 0) (.loan .InvalidTerm)
        ensure (minTerm ≤ maxTerm) (.loan .InvalidTerm))
    (pure ())
    (fun s => { s with maxTermLedgers := some maxTerm })
    (fun _ => [.SettingUpdated "TermLimitsUpdated" none minTerm maxTerm])

def pause : LoanManager → Res LoanManager :=
  configure env notInitializedPanic (pure ()) (pure ())
    (fun s => { s with paused := true, pausedAtLedger := some env.sequence })
    (fun _ => [.Paused env.sequence,.ContractPaused env.sequence])

def unpause : LoanManager → Res LoanManager :=
  configure env notInitializedPanic (pure ()) (pure ())
    (fun s => { s with paused := false, pausedAtLedger := none })
    (fun _ => [.Unpaused env.sequence,.ContractUnpaused env.sequence])

def setAdmin (newAdmin : Address) (m : LoanManager) : Res LoanManager := do
  let currentAdmin ← m.readAdmin
  let governanceContract ← expect m.governanceContract "governance contract not set"
  env.requireAuth governanceContract
  pure ({ m with admin := some newAdmin }.publish env
    (.AddressUpdated "AdminTransferred" currentAdmin newAdmin))

def migrate (m : LoanManager) : Res LoanManager := do
  let admin ← m.readAdmin
  env.requireAuth admin
  if Settings.currentVersion ≤ m.migratedVersion.getD 0 then
    pure m
  else
    pure { m with
      lateFeeRateBps := some m.readLateFeeRateBps
      liquidationThresholdBps := some m.readLiquidationThresholdBps
      liquidationBonusBps := some m.readLiquidationBonusBps
      minRateBps := some m.readMinRateBps
      maxRateBps := some m.readMaxRateBps
      version := some Settings.currentVersion
      migratedVersion := some Settings.currentVersion }

def empty : LoanManager where
  nftContract := none
  lendingPool := none
  token := none
  admin := none
  governanceContract := none
  paused := false
  pausedAtLedger := none
  circuitBreaker := none
  minScore := none
  minRepaymentAmount := none
  maxLoanAmount := none
  maxLoansPerBorrower := none
  interestRateBps := none
  minRateBps := none
  maxRateBps := none
  rateOracle := none
  priceOracle := none
  collateralToken := none
  defaultTermLedgers := none
  minTermLedgers := none
  maxTermLedgers := none
  lateFeeRateBps := none
  gracePeriodLedgers := none
  defaultWindowLedgers := none
  liquidationThresholdBps := none
  liquidationBonusBps := none
  version := none
  migratedVersion := none
  loans := ∅
  loanCounter := 0
  borrowerLoanCount := fun _ => 0
  borrowerLoans := fun _ => []
  totalOutstanding := fun _ => 0
  reentrancyLock := false
  events := []

def initializeManager (d : Deployment) (env : Env)
    (nftContract lendingPool token admin governanceContract : Address) (m : LoanManager) :
    Res LoanManager := do
  ensure (m.admin = none) (.loan .AlreadyInitialized)
  validateLateFeeRate Settings.defaultLateFeeRateBps
  validateLiquidationThreshold Settings.defaultLiquidationThresholdBps
  validateLiquidationBonusBps Settings.defaultLiquidationBonusBps
  ensure (env.nft.isAuthorizedMinter d.manager = true)
    (.panic "LoanManager must be authorized minter on NFT contract")
  pure { m with
    nftContract := some nftContract
    lendingPool := some lendingPool
    token := some token
    admin := some admin
    governanceContract := some governanceContract
    loanCounter := 0
    paused := false
    circuitBreaker := none
    version := some Settings.currentVersion
    maxLoanAmount := some Settings.defaultMaxLoanAmount
    maxLoansPerBorrower := some Settings.defaultMaxLoansPerBorrower
    lateFeeRateBps := some Settings.defaultLateFeeRateBps
    gracePeriodLedgers := some Settings.defaultGracePeriodLedgers
    defaultWindowLedgers := some Settings.defaultDefaultWindowLedgers
    liquidationThresholdBps := some Settings.defaultLiquidationThresholdBps
    liquidationBonusBps := some Settings.defaultLiquidationBonusBps
    minRateBps := some Settings.defaultMinRateBps
    maxRateBps := some Settings.defaultMaxRateBps }

structure SameTies (m m' : LoanManager) : Prop where
  lendingPool : m'.lendingPool = m.lendingPool
  token : m'.token = m.token
  admin : m.admin ≠ none → m'.admin ≠ none

structure SameRecords (m m' : LoanManager) : Prop where
  loans : m'.loans = m.loans
  loanCounter : m'.loanCounter = m.loanCounter
  totalOutstanding : m'.totalOutstanding = m.totalOutstanding

/-- The approvals and defaults that the log tells of, the latest first. -/
def announced (m : LoanManager) : List (LoanStatus × Nat) :=
  m.events.filterMap fun event => event.2.announced

lemma publish_foldl (es : List LoanEvent) (m : LoanManager) :
    ∃ events, es.foldl (fun m e => m.publish env e) m = { m with events := events } := by
  induction es generalizing m with
  | nil => exact ⟨m.events,rfl⟩
  | cons e es ih =>
    obtain ⟨events,h⟩ := ih (m.publish env e)
    exact ⟨events,h⟩

lemma announced_publish_foldl {es : List LoanEvent} (h : ∀ e ∈ es, e.announced = none)
    (m : LoanManager) : (es.foldl (fun m e => m.publish env e) m).announced = m.announced := by
  induction es generalizing m with
  | nil => rfl
  | cons e es ih =>
    rw [List.foldl_cons,ih fun e' he => h e' (List.mem_cons_of_mem e he)]
    exact List.filterMap_cons_none (h e List.mem_cons_self)

variable {notInitialized : Fault} {update : Settings → Settings}

lemma eq_of_configure {env l post} {es : Address → List LoanEvent}
    {m m' : LoanManager} (h : m.configure env notInitialized l post update es = .ok m') :
    ∃ events, m' = { m with toSettings := update m.toSettings, events := events } := by
  simp only [configure,eq_ok] at h
  obtain ⟨-,adm,-,-,-,rfl⟩ := h
  obtain ⟨events,he⟩ := publish_foldl env (es adm) { m with toSettings := update m.toSettings }
  exact ⟨events,he⟩

/-- Only settings and events changed, and no event told of an approval or a default; once
initialized, the ties and the counter of loans are kept. -/
structure Configured (m m' : LoanManager) : Prop where
  eq : m' = { m with
    toSettings := m'.toSettings
    loanCounter := m'.loanCounter
    events := m'.events }
  announced : m'.announced = m.announced
  admin : m'.admin ≠ none
  kept : m.admin ≠ none →
    m'.loanCounter = m.loanCounter ∧ m'.lendingPool = m.lendingPool ∧ m'.token = m.token

lemma configured_of_configure {env l post es}
    {m m' : LoanManager} (h : m.configure env notInitialized l post update es = .ok m')
    (hp : (update m.toSettings).lendingPool = m.lendingPool)
    (ht : (update m.toSettings).token = m.token) (ha : (update m.toSettings).admin = m.admin)
    (hq : ∀ adm, ∀ e ∈ es adm, e.announced = none) : Configured m m' := by
  obtain ⟨_,rfl⟩ := eq_of_configure h
  simp only [configure,eq_ok] at h
  obtain ⟨-,adm,hs,-,-,he⟩ := h
  refine ⟨rfl,?_,?_,fun _ => ⟨rfl,hp,ht⟩⟩
  · rw [← he,announced_publish_foldl env (hq adm)]
    rfl
  show (update m.toSettings).admin ≠ none
  rw [ha,hs]
  exact some_ne_none adm

end LoanManager

inductive SettingCall
  | initializeManager (nftContract lendingPool token admin governanceContract : Address)
  | migrate
  | setAdmin (newAdmin : Address)
  | pause
  | unpause
  | setCircuitBreaker (breaker : Option Address)
  | setLateFeeRate (rateBps : Nat)
  | setLiquidationThreshold (ratioBps : Nat)
  | setLiquidationBonusBps (bonusBps : Nat)
  | setGracePeriodLedgers (ledgers : Nat)
  | setDefaultWindowLedgers (ledgers : Nat)
  | setMinScore (minScore : Nat)
  | setMaxLoanAmount (amount : Int)
  | setMinRepaymentAmount (amount : Int)
  | setMaxLoansPerBorrower (maxLoans : Nat)
  | setInterestRate (rateBps : Nat)
  | setRateOracle (rateOracle : Address)
  | setPriceOracle (priceOracle : Address)
  | setCollateralToken (collateralToken : Address)
  | setMinRateBps (minRate : Nat)
  | setMaxRateBps (maxRate : Nat)
  | setDefaultTerm (ledgers : Nat)
  | setMinTermLedgers (minTerm : Nat)
  | setMaxTermLedgers (maxTerm : Nat)

namespace SettingCall

def exec (d : Deployment) (env : Env) (m : LoanManager) : SettingCall → Res LoanManager
  | .initializeManager nftContract lendingPool token admin governanceContract =>
    m.initializeManager d env nftContract lendingPool token admin governanceContract
  | .migrate => m.migrate env
  | .setAdmin newAdmin => m.setAdmin env newAdmin
  | .pause => m.pause env
  | .unpause => m.unpause env
  | .setCircuitBreaker breaker => m.setCircuitBreaker env breaker
  | .setLateFeeRate rateBps => m.setLateFeeRate env rateBps
  | .setLiquidationThreshold ratioBps => m.setLiquidationThreshold env ratioBps
  | .setLiquidationBonusBps bonusBps => m.setLiquidationBonusBps env bonusBps
  | .setGracePeriodLedgers ledgers => m.setGracePeriodLedgers env ledgers
  | .setDefaultWindowLedgers ledgers => m.setDefaultWindowLedgers env ledgers
  | .setMinScore minScore => m.setMinScore env minScore
  | .setMaxLoanAmount amount => m.setMaxLoanAmount env amount
  | .setMinRepaymentAmount amount => m.setMinRepaymentAmount env amount
  | .setMaxLoansPerBorrower maxLoans => m.setMaxLoansPerBorrower env maxLoans
  | .setInterestRate rateBps => m.setInterestRate env rateBps
  | .setRateOracle rateOracle => m.setRateOracle env rateOracle
  | .setPriceOracle priceOracle => m.setPriceOracle env priceOracle
  | .setCollateralToken collateralToken => m.setCollateralToken env collateralToken
  | .setMinRateBps minRate => m.setMinRateBps env minRate
  | .setMaxRateBps maxRate => m.setMaxRateBps env maxRate
  | .setDefaultTerm ledgers => m.setDefaultTerm env ledgers
  | .setMinTermLedgers minTerm => m.setMinTermLedgers env minTerm
  | .setMaxTermLedgers maxTerm => m.setMaxTermLedgers env maxTerm

variable {d : Deployment} {env : Env} {m m' : LoanManager}

lemma configured {c : SettingCall} (h : c.exec d env m = .ok m') : m.Configured m' := by
  cases c with
  | initializeManager nftContract lendingPool tok adm =>
    simp only [exec,LoanManager.initializeManager,eq_ok] at h
    obtain ⟨hn,-,-,-,-,rfl⟩ := h
    exact ⟨rfl,rfl,some_ne_none adm,fun hi => absurd hn hi⟩
  | migrate =>
    simp only [exec,LoanManager.migrate,Settings.readAdmin,eq_ok] at h
    obtain ⟨adm,ha,-,h⟩ := h
    have hs : m.admin ≠ none := ha ▸ some_ne_none adm
    split at h
    · cases h
      exact ⟨rfl,rfl,hs,fun _ => ⟨rfl,rfl,rfl⟩⟩
    · cases h
      exact ⟨rfl,rfl,hs,fun _ => ⟨rfl,rfl,rfl⟩⟩
  | setAdmin na =>
    simp only [exec,LoanManager.setAdmin,eq_ok] at h
    obtain ⟨_,-,_,-,-,rfl⟩ := h
    exact ⟨rfl,rfl,some_ne_none na,fun _ => ⟨rfl,rfl,rfl⟩⟩
  | pause | unpause | setCircuitBreaker _ | setLateFeeRate _ | setLiquidationThreshold _
  | setLiquidationBonusBps _ | setGracePeriodLedgers _ | setDefaultWindowLedgers _ | setMinScore _
  | setMaxLoanAmount _ | setMinRepaymentAmount _ | setMaxLoansPerBorrower _ | setInterestRate _
  | setRateOracle _ | setPriceOracle _ | setCollateralToken _ | setMinRateBps _ | setMaxRateBps _
  | setDefaultTerm _ | setMinTermLedgers _ | setMaxTermLedgers _ =>
    simp only [exec,LoanManager.pause,LoanManager.unpause,LoanManager.setCircuitBreaker,
      LoanManager.setLateFeeRate,LoanManager.setLiquidationThreshold,
      LoanManager.setLiquidationBonusBps,LoanManager.setGracePeriodLedgers,
      LoanManager.setDefaultWindowLedgers,LoanManager.setMinScore,LoanManager.setMaxLoanAmount,
      LoanManager.setMinRepaymentAmount,LoanManager.setMaxLoansPerBorrower,
      LoanManager.setInterestRate,LoanManager.setRateOracle,LoanManager.setPriceOracle,
      LoanManager.setCollateralToken,LoanManager.setMinRateBps,LoanManager.setMaxRateBps,
      LoanManager.setDefaultTerm,LoanManager.setMinTermLedgers,LoanManager.setMaxTermLedgers] at h
    -- no update names the pool, the token or the admin
    exact LoanManager.configured_of_configure h rfl rfl rfl (by simp [LoanEvent.announced])

/-- **Settings**: on a manager that is initialized, a setting call keeps every record and stays with
the pool and the token. -/
lemma keeps {c : SettingCall} (hn : m.admin ≠ none) (h : c.exec d env m = .ok m') :
    m.SameTies m' ∧ m.SameRecords m' := by
  have hc := configured h
  obtain ⟨ht,hp,hk⟩ := hc.kept hn
  refine ⟨⟨hp,hk,fun _ => hc.admin⟩,⟨?_,ht,?_⟩⟩
  · rw [hc.eq]
  · rw [hc.eq]

end SettingCall

end DukaPay
