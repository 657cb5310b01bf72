import DukaPay.Contractlib.Outcome

/-! `parseEvent` turns a raw event of the RPC into an event of the backend. -/
namespace DukaPay.Backend
open Contractlib

inductive EventType
  | LoanRequested | LoanApproved | LoanRepaid | LoanDefaulted | CollateralLiquidated
  | CollateralReturned | CollateralDeposited | CollateralReleased | ColDep | ColRel
  | LateFeeCharged | LoanExtended | LoanCancelled | LoanRejected | LoanRefinanced
  | InterestRateUpdated | DefaultTermUpdated | TermLimitsUpdated | LateFeeRateUpdated
  | GracePeriodUpdated | DefaultWindowUpdated | MaxLoanAmountUpdated | MinRepaymentUpdated
  | MaxLoansPerBorrower | MinRateBpsUpdated | MaxRateBpsUpdated | RateOracleUpdated
  | Deposit | Withdraw | YieldDistributed | EmergencyWithdraw | DepositCapUpdated
  | WithdrawalCooldownUpdated | NFTMinted | ScoreUpdated | NFTSeized | NFTBurned
  | ProposalCreated | ProposalApproved | ProposalFinalized | ProposalCancelled
  | LoanApprv | LoanLiquidated | Mint | ScoreUpd | ScoreDecr | Seized | NftBurned | AdmRemint
  | HashUpd | GovProp | GovAppr | GovFin | Transfer | MntAuth | MntRev | Paused | Unpaused
  | MinScoreUpdated | PoolPaused | PoolUnpaused | GovCncl | GovEmerg | GovExp
  deriving DecidableEq, Repr

open EventType in
def supportedWebhookEventTypes : List (String × EventType) :=
  [("LoanRequested",LoanRequested),("LoanApproved",LoanApproved),("LoanRepaid",LoanRepaid),
    ("LoanDefaulted",LoanDefaulted),("CollateralLiquidated",CollateralLiquidated),
    ("CollateralReturned",CollateralReturned),("CollateralDeposited",CollateralDeposited),
    ("CollateralReleased",CollateralReleased),("ColDep",ColDep),("ColRel",ColRel),
    ("LateFeeCharged",LateFeeCharged),("LoanExtended",LoanExtended),
    ("LoanCancelled",LoanCancelled),("LoanRejected",LoanRejected),
    ("LoanRefinanced",LoanRefinanced),("InterestRateUpdated",InterestRateUpdated),
    ("DefaultTermUpdated",DefaultTermUpdated),("TermLimitsUpdated",TermLimitsUpdated),
    ("LateFeeRateUpdated",LateFeeRateUpdated),("GracePeriodUpdated",GracePeriodUpdated),
    ("DefaultWindowUpdated",DefaultWindowUpdated),
    ("MaxLoanAmountUpdated",MaxLoanAmountUpdated),("MinRepaymentUpdated",MinRepaymentUpdated),
    ("MaxLoansPerBorrower",MaxLoansPerBorrower),("MinRateBpsUpdated",MinRateBpsUpdated),
    ("MaxRateBpsUpdated",MaxRateBpsUpdated),("RateOracleUpdated",RateOracleUpdated),
    ("Deposit",Deposit),("Withdraw",Withdraw),("YieldDistributed",YieldDistributed),
    ("EmergencyWithdraw",EmergencyWithdraw),("DepositCapUpdated",DepositCapUpdated),
    ("WithdrawalCooldownUpdated",WithdrawalCooldownUpdated),("NFTMinted",NFTMinted),
    ("ScoreUpdated",ScoreUpdated),("NFTSeized",NFTSeized),("NFTBurned",NFTBurned),
    ("ProposalCreated",ProposalCreated),("ProposalApproved",ProposalApproved),
    ("ProposalFinalized",ProposalFinalized),("ProposalCancelled",ProposalCancelled),
    ("LoanApprv",LoanApprv),("LoanLiquidated",LoanLiquidated),("Mint",Mint),
    ("ScoreUpd",ScoreUpd),("ScoreDecr",ScoreDecr),("Seized",Seized),
    ("NftBurned",NftBurned),("AdmRemint",AdmRemint),("HashUpd",HashUpd),
    ("GovProp",GovProp),("GovAppr",GovAppr),("GovFin",GovFin),("Transfer",Transfer),
    ("MntAuth",MntAuth),("MntRev",MntRev),("Paused",Paused),("Unpaused",Unpaused),
    ("MinScoreUpdated",MinScoreUpdated),("PoolPaused",PoolPaused),
    ("PoolUnpaused",PoolUnpaused),("GovCncl",GovCncl),("GovEmerg",GovEmerg),
    ("GovExp",GovExp)]

def eventTypeAliases : List (String × String) :=
  [("Mint","NFTMinted"),("AdmRemint","NFTMinted"),("ScoreUpd","ScoreUpdated"),
    ("Seized","NFTSeized"),("NftBurned","NFTBurned"),("MinScore","MinScoreUpdated"),
    ("GovProp","ProposalCreated"),("GovAppr","ProposalApproved"),
    ("GovFin","ProposalFinalized"),("GovCncl","ProposalCancelled"),
    ("GovEmerg","ProposalCancelled"),("GovExp","ProposalCancelled"),
    ("ColDep","CollateralDeposited"),("ColRel","CollateralReleased")]

def EventType.name (type : EventType) : String :=
  ((supportedWebhookEventTypes.find? (·.2 = type)).map (·.1)).getD ""

def adminConfigEventTypes : List EventType :=
  [.MinScoreUpdated,.InterestRateUpdated,.DefaultTermUpdated,.TermLimitsUpdated,
    .LateFeeRateUpdated,.GracePeriodUpdated,.DefaultWindowUpdated,.MaxLoanAmountUpdated,
    .MinRepaymentUpdated,.MaxLoansPerBorrower,.MinRateBpsUpdated,.MaxRateBpsUpdated,
    .RateOracleUpdated]

inductive JsNumber
  | integer (n : Int)
  | fraction
  | infinite
  | nan
  deriving DecidableEq, Repr

def JsNumber.isFinite : JsNumber → Bool
  | .integer _ => true
  | .fraction => true
  | .infinite => false
  | .nan => false

inductive Native
  | bigint (n : Int)
  | number (x : JsNumber)
  | string (s : String)
  | array (elements : List Native)
  | other (type : String)
  deriving Repr

def Native.typeOf : Native → String
  | .bigint _ => "bigint"
  | .number _ => "number"
  | .string _ => "string"
  | .array _ => "object"
  | .other type => type

def Native.elements? : Native → Option (List Native)
  | .array elements => some elements
  | _ => none

def Native.element? (native : Native) (index : Nat) : Option Native :=
  native.elements? >>= fun elements => elements[index]?

/-- The functions of the SDK and of the language that `parseEvent` calls. Each returns or throws an
error with a message. -/
structure Runtime (ScVal : Type) where
  sym : ScVal → Except String String
  scValToNative : ScVal → Except String Native
  toNumber : Native → Except String JsNumber
  toText : Native → Except String String
  display : Native → String
  toXDR : ScVal → Except String String
  date : String → Option Int

structure SorobanRawEvent (ScVal : Type) where
  id : String
  topic : List ScVal
  value : ScVal
  ledger : Nat
  ledgerClosedAt : String
  txHash : String
  contractId : String

structure ContractEvent where
  eventId : String
  eventType : EventType
  loanId : Option JsNumber
  address : Option String
  amount : Option String
  ledger : Nat
  ledgerClosedAt : Option Int
  txHash : String
  contractId : String
  topics : List String
  value : String
  interestRateBps : Option JsNumber
  termLedgers : Option JsNumber
  adminAddress : Option String
  borrowerRefund : Option String
  deriving Repr

section
variable {ScVal : Type} (rt : Runtime ScVal)

def decodeEventType (value : Option ScVal) : Option EventType := do
  let value ← value
  let rawType ← (rt.sym value).toOption
  let normalizedType := (eventTypeAliases.lookup rawType).getD rawType
  supportedWebhookEventTypes.lookup normalizedType

variable (value : ScVal)

def decodeAddress : Except String String := do
  let decoded ← rt.scValToNative value
  match decoded with
  | .string s => pure s
  | _ => throw ("Expected address string, got " ++ decoded.typeOf ++ ": " ++ rt.display decoded)

def decodeAmount : Except String String := do
  let decoded ← rt.scValToNative value
  match decoded with
  | .bigint n => pure (toString n)
  | .number (.integer n) => pure (toString n)
  | _ =>
    throw ("Expected integer stroop amount, got " ++ decoded.typeOf ++ ": " ++ rt.display decoded)

/-- `Number(scValToNative(value))`, or nothing if it throws. A value that is no number gives `NaN`,
which is not nothing. -/
def decodeLoanId : Option JsNumber :=
  (rt.scValToNative value >>= rt.toNumber).toOption

def decodeTupleNumericValue (index : Nat) (value : ScVal) : Except String (Option String) := do
  let native ← rt.scValToNative value
  match native.element? index with
  | some (.bigint n) => some <$> rt.toText (.bigint n)
  | some (.number x) => some <$> rt.toText (.number x)
  | _ => pure none

def decodeTupleFirstNumericValue : ScVal → Except String (Option String) :=
  decodeTupleNumericValue rt 0

def decodeTupleSecondNumericValue : ScVal → Except String (Option String) :=
  decodeTupleNumericValue rt 1

def decodeTupleThirdNumericValue : ScVal → Except String (Option String) :=
  decodeTupleNumericValue rt 2

def decodeTupleSecondAddress : Except String (Option String) := do
  let native ← rt.scValToNative value
  match native.element? 1 with
  | some (.string s) => pure (some s)
  | _ => pure none

def secondText : Except String (Option String) := do
  let data ← rt.scValToNative value
  match data.element? 1 with
  | some second => some <$> rt.toText second
  | none => pure none

def optionalAddress (topic : Option ScVal) : Except String (Option String) :=
  match topic with
  | some value => some <$> decodeAddress rt value
  | none => pure none

structure Decoded where
  loanId : Option JsNumber := none
  address : Option String := none
  amount : Option String := none
  interestRateBps : Option JsNumber := none
  termLedgers : Option JsNumber := none
  borrowerRefund : Option String := none

def decodeAdminUpdate (event : SorobanRawEvent ScVal) : Except String (Option Decoded) := do
  let address ← optionalAddress rt event.topic[1]?
  let amount ← decodeTupleSecondNumericValue rt event.value
  pure (some { address, amount })

def decodeUpdate (event : SorobanRawEvent ScVal) : Except String (Option Decoded) := do
  let amount ← decodeTupleSecondNumericValue rt event.value
  pure (some { amount })

def decodeFields (type : EventType) (event : SorobanRawEvent ScVal) :
    Except String (Option Decoded) :=
  match type with
  | .LoanRequested =>
    match event.topic[1]?,event.topic[2]? with
    | some topic1,some topic2 =>
      match decodeLoanId rt topic1 with
      | none => pure none
      | some loanId => do
        let address ← decodeAddress rt topic2
        let amount ← decodeAmount rt event.value
        pure (some { loanId := some loanId, address := some address, amount := some amount })
    | _,_ => pure none
  | .LoanApproved =>
    match event.topic[1]?,event.topic[2]? with
    | some topic1,some topic2 =>
      match decodeLoanId rt topic1 with
      | none => pure none
      | some loanId => do
        let address ← decodeAddress rt topic2
        let data ← rt.scValToNative event.value
        match data.elements? with
        | some (rate :: term :: _) => do
          let interestRateBps ← rt.toNumber rate
          let termLedgers ← rt.toNumber term
          ensure (interestRateBps.isFinite = true)
            ("LoanApproved event has invalid interest_rate_bps: " ++ event.id)
          ensure (termLedgers.isFinite = true)
            ("LoanApproved event has invalid term_ledgers: " ++ event.id)
          pure (some {
            loanId := some loanId, address := some address,
            interestRateBps := some interestRateBps, termLedgers := some termLedgers })
        | _ => throw ("LoanApproved event missing interest_rate_bps or term_ledgers: " ++ event.id)
    | _,_ => pure none
  | .LoanRepaid =>
    match event.topic[1]?,event.topic[2]? with
    | some topic1,some topic2 => do
      let address ← decodeAddress rt topic1
      let amount ← decodeAmount rt event.value
      pure (some {
        loanId := decodeLoanId rt topic2, address := some address, amount := some amount })
    | _,_ => pure none
  | .LoanDefaulted =>
    match event.topic[1]? with
    | none => pure none
    | some topic1 =>
      match decodeLoanId rt topic1 with
      | none => pure none
      | some loanId => do
        let address ← decodeAddress rt event.value
        pure (some { loanId := some loanId, address := some address })
  | .CollateralLiquidated =>
    match event.topic[1]? with
    | none => pure none
    | some topic1 =>
      match decodeLoanId rt topic1 with
      | none => pure none
      | some loanId => do
        let amount ← decodeAmount rt event.value
        pure (some { loanId := some loanId, amount := some amount })
  | .Deposit | .Withdraw | .EmergencyWithdraw =>
    match event.topic[1]? with
    | none => pure none
    | some topic1 => do
      let address ← decodeAddress rt topic1
      let amount ← decodeTupleFirstNumericValue rt event.value
      pure (some { address := some address, amount })
  | .NFTMinted | .ScoreUpdated | .YieldDistributed =>
    match event.topic[1]? with
    | none => pure none
    | some topic1 => do
      let address ← decodeAddress rt topic1
      let amount ← decodeAmount rt event.value
      pure (some { address := some address, amount := some amount })
  | .NFTSeized | .NFTBurned
  | .ProposalCreated | .ProposalApproved | .ProposalFinalized | .ProposalCancelled =>
    match event.topic[1]? with
    | none => pure none
    | some topic1 => do
      let address ← decodeAddress rt topic1
      pure (some { address := some address })
  | .Transfer => do
    let address ← optionalAddress rt event.topic[2]?
    pure (some { address })
  | .LoanRefinanced =>
    match event.topic[1]?,event.topic[2]? with
    | some topic1,some topic2 => do
      let address ← decodeAddress rt topic2
      let amount ← decodeTupleFirstNumericValue rt event.value
      pure (some { loanId := decodeLoanId rt topic1, address := some address, amount })
    | _,_ => pure none
  | .LoanExtended =>
    match event.topic[1]?,event.topic[2]? with
    | some topic1,some topic2 => do
      let address ← decodeAddress rt topic2
      let amount ← secondText rt event.value
      pure (some { loanId := decodeLoanId rt topic1, address := some address, amount })
    | _,_ => pure none
  | .LoanCancelled =>
    match event.topic[1]? with
    | none => pure none
    | some topic1 => do
      let address ← decodeAddress rt topic1
      pure (some { loanId := decodeLoanId rt event.value, address := some address })
  | .LoanRejected =>
    match event.topic[1]? with
    | none => pure none
    | some topic1 => pure (some { loanId := decodeLoanId rt topic1 })
  | .LateFeeCharged =>
    match event.topic[1]? with
    | none => pure none
    | some topic1 => do
      let amount ← decodeAmount rt event.value
      pure (some { loanId := decodeLoanId rt topic1, amount := some amount })
  | .CollateralReturned =>
    match event.topic[1]?,event.topic[2]? with
    | some topic1,some topic2 => do
      let address ← decodeAddress rt topic1
      let amount ← decodeAmount rt event.value
      pure (some {
        loanId := decodeLoanId rt topic2, address := some address, amount := some amount })
    | _,_ => pure none
  | .DepositCapUpdated | .ScoreDecr =>
    match event.topic[1]? with
    | none => pure none
    | some topic1 => do
      let address ← decodeAddress rt topic1
      let amount ← secondText rt event.value
      pure (some { address := some address, amount })
  | .WithdrawalCooldownUpdated => do
    let amount ← secondText rt event.value
    pure (some { amount })
  | .MinScoreUpdated | .LateFeeRateUpdated | .GracePeriodUpdated | .DefaultWindowUpdated
  | .MaxLoanAmountUpdated | .MinRepaymentUpdated | .MaxLoansPerBorrower | .MinRateBpsUpdated
  | .MaxRateBpsUpdated => decodeAdminUpdate rt event
  | .InterestRateUpdated | .DefaultTermUpdated | .TermLimitsUpdated => decodeUpdate rt event
  | .RateOracleUpdated => do
    let address ← decodeTupleSecondAddress rt event.value
    pure (some { address })
  | .CollateralDeposited => do
    let address ← optionalAddress rt event.topic[1]?
    let amount ← decodeAmount rt event.value
    pure (some { loanId := event.topic[2]? >>= decodeLoanId rt, address, amount := some amount })
  | .CollateralReleased => do
    let address ← optionalAddress rt event.topic[1]?
    pure (some { loanId := event.topic[2]? >>= decodeLoanId rt, address })
  | .LoanApprv => do
    let data ← rt.scValToNative event.value
    match data.elements? with
    | some (loan :: borrower :: _) => do
      let loanId ← rt.toNumber loan
      let address ← rt.toText borrower
      pure (some { loanId := some loanId, address := some address })
    | _ => pure (some {})
  | .LoanLiquidated =>
    match event.topic[1]?,event.topic[2]? with
    | some topic1,some topic2 => do
      let address ← decodeAddress rt topic2
      let amount ← decodeTupleFirstNumericValue rt event.value
      let borrowerRefund ← decodeTupleThirdNumericValue rt event.value
      pure (some {
        loanId := decodeLoanId rt topic1, address := some address, amount, borrowerRefund })
    | _,_ => pure none
  -- the other types have no branch of their own
  | _ => pure (some {})

def decodeAdminAddress (type : EventType) (event : SorobanRawEvent ScVal) : Option String :=
  if type = .LoanApprv then event.topic[1]? >>= fun topic1 => (decodeAddress rt topic1).toOption
  else none

def parseEvent (event : SorobanRawEvent ScVal) : Except String (Option ContractEvent) :=
  match decodeEventType rt event.topic[0]? with
  | none => pure none
  | some type => do
    let decoded ← decodeFields rt type event
    match decoded with
    | none => pure none
    | some fields => do
      let topics ← event.topic.mapM rt.toXDR
      let value ← rt.toXDR event.value
      pure (some {
        eventId := event.id
        eventType := type
        loanId := fields.loanId
        address := fields.address
        amount := fields.amount
        ledger := event.ledger
        ledgerClosedAt := rt.date event.ledgerClosedAt
        txHash := event.txHash
        contractId := event.contractId
        topics
        value
        interestRateBps := fields.interestRateBps
        termLedgers := fields.termLedgers
        adminAddress := decodeAdminAddress rt type event
        borrowerRefund := fields.borrowerRefund })

variable {rt}

lemma parseEvent_source {ev prs} (h : parseEvent rt ev = .ok (some prs)) : prs.eventId = ev.id ∧
    prs.ledger = ev.ledger ∧ prs.txHash = ev.txHash ∧ prs.contractId = ev.contractId := by
  rw [parseEvent] at h
  split at h
  · cases h
  rw [bind_eq_ok] at h
  obtain ⟨dec,-,h⟩ := h
  cases dec with
  | none => cases h
  | some =>
    simp only [bind_eq_ok,pure_eq_ok] at h
    obtain ⟨_,-,_,-,h⟩ := h
    cases h
    exact ⟨rfl,rfl,rfl,rfl⟩

end

inductive PlainVal
  | symbol (s : String)
  | address (s : String)
  | u32 (n : Nat)
  | i128 (n : Int)
  deriving DecidableEq

def zeroAccount : String := "GAAAAAAAAAAAAAAAAAAAAAAAAAAAAAAAAAAAAAAAAAAAAAAAAAAAAWHF"

def zeroContract : String := "CAAAAAAAAAAAAAAAAAAAAAAAAAAAAAAAAAAAAAAAAAAAAAAAAAAABSC4"

def plainXdr : List (PlainVal × String) :=
  [(.symbol "LoanRepaid","AAAADwAAAApMb2FuUmVwYWlkAAA="),
    (.symbol "LoanDefaulted","AAAADwAAAA1Mb2FuRGVmYXVsdGVkAAAA"),
    (.u32 1,"AAAAAwAAAAE="),(.u32 2,"AAAAAwAAAAI="),
    (.i128 100,"AAAACgAAAAAAAAAAAAAAAAAAAGQ="),
    (.address zeroAccount,"AAAAEgAAAAAAAAAAAAAAAAAAAAAAAAAAAAAAAAAAAAAAAAAAAAAAAAAAAAA=")]

def plainRuntime : Runtime PlainVal where
  sym
    | .symbol s => .ok s
    | _ => .error "not a symbol"
  scValToNative
    | .symbol s => .ok (.string s)
    | .address s => .ok (.string s)
    | .u32 n => .ok (.number (.integer n))
    | .i128 n => .ok (.bigint n)
  toNumber
    | .bigint n => .ok (.integer n)
    | .number x => .ok x
    | _ => .ok .nan
  toText
    | .bigint n => .ok (toString n)
    | .number (.integer n) => .ok (toString n)
    | .string s => .ok s
    | _ => .error "no text"
  display native := native.typeOf
  toXDR value := orFail (plainXdr.lookup value) "unknown value"
  date text := if text = "2026-01-01T00:00:00Z" then some 1767225600000 else none

def plainEvent (id : String) (ledger : Nat) (topic : List PlainVal) (value : PlainVal) :
    SorobanRawEvent PlainVal where
  id
  topic
  value
  ledger
  ledgerClosedAt := "2026-01-01T00:00:00Z"
  txHash := "tx"
  contractId := zeroContract

def repaidEvent (id : String) (ledger loan : Nat) : SorobanRawEvent PlainVal :=
  plainEvent id ledger [.symbol "LoanRepaid",.address zeroAccount,.u32 loan] (.i128 100)

def defaultedEvent (id : String) (ledger loan : Nat) : SorobanRawEvent PlainVal :=
  plainEvent id ledger [.symbol "LoanDefaulted",.u32 loan] (.address zeroAccount)

end DukaPay.Backend
