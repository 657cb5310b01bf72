import DukaPay.Contractlib.Rows
import DukaPay.Contractlib.Threads
import DukaPay.JavaScript
import Mathlib.Algebra.Order.Ring.Rat

/-! A remittance is screened against the last 24 hours of its sender, then the account of the sender
is loaded over the network, and then the row is inserted. -/
namespace DukaPay.Backend.Remittances
open Contractlib

structure Env where
  kycEnforcementEnabled : Bool
  amlReportingThreshold : ℚ
  amlDailyTxLimit : Nat
  highRiskCountries : List String
  usdcIssuer : Option String
  eurcIssuer : Option String
  phpIssuer : Option String

structure CreateRemittancePayload where
  recipientAddress : String
  amount : ℚ
  fromCurrency : String
  toCurrency : String
  memo : Option String
  senderAddress : String
  amount_pos : 0 < amount

structure Remittance where
  id : String
  senderId : String
  recipientAddress : String
  amount : ℚ
  fromCurrency : String
  toCurrency : String
  memo : Option String
  createdAt : Int
  deriving DecidableEq

inductive ProfileStatus
  | approved
  | review
  | rejected
  deriving DecidableEq

structure Profile where
  status : ProfileStatus
  countryCode : String

inductive Rule
  | kycNotApproved
  | velocity24h
  | aggregateThreshold
  | largeTransaction
  | structuring
  | highRiskJurisdiction

structure Alert where
  id : String
  subjectId : String
  transactionReference : String
  riskScore : Nat
  ruleCodes : List Rule

structure SarReport where
  alertId : String
  subjectId : String

structure Db (κ : Type) where
  remittances : List Remittance
  profiles : String → Option Profile
  alerts : List Alert
  sarReports : List SarReport
  now : Int
  started : κ → Int
  seen : κ → List Remittance

inductive Failure
  | invalidRecipient
  | invalidSender
  | unsupportedCurrency (currency : String)
  | complianceReview
  | internal
  | database

inductive Statement
  | start
  | selectProfile
  | audit
  | selectHistory
  | insertAlert
  | insertSar
  | submitSar
  | getAccount
  | insertRemittance

structure Answer where
  fault : Fault
  id : String

abbrev Program (κ : Type) := Thread Failure Statement Answer (Db κ)

def day : Int := 24 * 3600 * 1000000

def isBase32 (c : Char) : Bool := decide (('A' ≤ c ∧ c ≤ 'Z') ∨ ('2' ≤ c ∧ c ≤ '7'))

def isValidStellarAddress (address : String) : Bool :=
  decide (address.length = 56) && match address.toList with
    | 'G' :: rest => rest.all isBase32
    | _ => false

def normalizeCurrency (currency : String) : String :=
  String.ofList ((JavaScript.trim currency.toList).map Char.toUpper)

inductive Asset
  | native
  | credit (code issuer : String)

variable (env : Env)

def tokenIssuer (currency : String) : Option String :=
  if currency = "USDC" then env.usdcIssuer
  else if currency = "EURC" then env.eurcIssuer
  else if currency = "PHP" then env.phpIssuer
  else none

def getCurrencyAsset (currency : String) : Except Failure Asset :=
  let normalized := normalizeCurrency currency
  if normalized = "XLM" then .ok .native
  else match tokenIssuer env normalized with
    | none => .error (.unsupportedCurrency currency)
    | some issuer =>
      if isValidStellarAddress issuer then .ok (.credit normalized issuer)
      else .error (.unsupportedCurrency currency)

def ofSender (sender : String) (remittances : List Remittance) : List Remittance :=
  remittances.filter (·.senderId = sender)

def since (time : Int) (remittances : List Remittance) : List Remittance :=
  remittances.filter (time ≤ ·.createdAt)

def total (remittances : List Remittance) : ℚ := (remittances.map (·.amount)).sum

structure History where
  count24h : Nat
  amount24h : ℚ
  nearThresholdCount : Nat

def nearThreshold (amount : ℚ) : Bool :=
  decide (env.amlReportingThreshold * (4 / 5) ≤ amount ∧ amount < env.amlReportingThreshold)

def history (rows : List Remittance) : History :=
  ⟨rows.length,total rows,(rows.filter fun r => nearThreshold env r.amount).length⟩

def brokenRules (history : History) (amount : ℚ) (countryCode : String) : List Rule :=
  (if env.amlDailyTxLimit ≤ history.count24h then [.velocity24h] else []) ++
  (if env.amlReportingThreshold ≤ history.amount24h + amount then [.aggregateThreshold] else []) ++
  (if env.amlReportingThreshold ≤ amount then [.largeTransaction] else []) ++
  (if 2 ≤ history.nearThresholdCount ∧ nearThreshold env amount then [.structuring] else []) ++
  (if countryCode.toUpper ∈ env.highRiskCountries then [.highRiskJurisdiction] else [])

variable {κ : Type} [DecidableEq κ]

def sql {α : Type} (statement : Statement) (f : Answer → Db κ → Except Failure α × Db κ) :
    Program κ α :=
  .faulty statement Answer.fault .database f

def start (k : κ) : Program κ (String × Int) :=
  .statement .start fun i db =>
    (.ok (i.id,db.now), { db with started := fun j => if j = k then db.now else db.started j })

def selectProfile (subjectId : String) : Program κ (Option Profile) :=
  sql .selectProfile fun _ db => (.ok (db.profiles subjectId),db)

def appendAudit : Program κ Unit := sql .audit fun _ db => (.ok (),db)

def selectHistory (env : Env) (k : κ) (subjectId : String) : Program κ History :=
  sql .selectHistory fun _ db =>
    (.ok (history env (since (db.now - day) (ofSender subjectId db.remittances))),
      { db with seen := fun j => if j = k then db.remittances else db.seen j })

def insertAlert (subjectId reference : String) (rules : List Rule) : Program κ String :=
  sql .insertAlert fun i db =>
    (.ok i.id,{ db with alerts := db.alerts ++
      [⟨i.id,subjectId,reference,min (rules.length * 25) 100,rules⟩] })

def insertSar (alertId subjectId : String) : Program κ Unit :=
  sql .insertSar fun _ db => (.ok (),{ db with sarReports := db.sarReports ++ [⟨alertId,subjectId⟩] })

def submitSar : Program κ Unit := .statement .submitSar fun _ db => (.ok (),db)

def raiseAlert (subjectId reference : String) (rules : List Rule) : Program κ
    (Bool × List Rule) := do
  let alertId ← insertAlert subjectId reference rules
  insertSar alertId subjectId
  appendAudit
  submitSar
  pure (false,rules)

def monitorTransaction (env : Env) (k : κ) (subjectId : String) (amount : ℚ) (reference : String) :
    Program κ (Bool × List Rule) :=
  if env.kycEnforcementEnabled = false then pure (true,[])
  else do
    let profile ← selectProfile subjectId
    match profile.filter (·.status = .approved) with
    | none => do
      appendAudit
      pure (false,[.kycNotApproved])
    | some profile => do
      let row ← selectHistory env k subjectId
      let rules := brokenRules env row amount profile.countryCode
      if rules = [] then pure (true,rules) else raiseAlert subjectId reference rules

def getAccount : Program κ Unit := .faulty .getAccount Answer.fault .internal fun _ db =>
    (.ok (),db)

def insertRemittance (row : Remittance) : Program κ Remittance :=
  .faulty .insertRemittance Answer.fault .internal fun _ db =>
    match selectRow Remittance.id row.id db.remittances with
    | some _ => (.error .internal,db)
    | none => (.ok row,{ db with remittances := db.remittances ++ [row] })

def createRemittance (env : Env) (k : κ) (payload : CreateRemittancePayload) :
    Program κ Remittance := do
  let (id,now) ← start k
  if isValidStellarAddress payload.recipientAddress = false then throw .invalidRecipient
  else if isValidStellarAddress payload.senderAddress = false then throw .invalidSender
  else match getCurrencyAsset env payload.fromCurrency with
    | .error e => throw e
    | .ok _ => do
      let (allowed,_) ← monitorTransaction env k payload.senderAddress payload.amount id
      if allowed = false then throw .complianceReview
      else do
        getAccount
        insertRemittance ⟨id,payload.senderAddress,payload.recipientAddress,payload.amount,
          normalizeCurrency payload.fromCurrency,normalizeCurrency payload.toCurrency,payload.memo,
          now⟩

def remittancePool (env : Env) (payloads : κ → CreateRemittancePayload) (db : Db κ) :
    Pool κ Failure Statement Answer (Db κ) Remittance :=
  ⟨fun k => createRemittance env k (payloads k),db⟩

def pass (d : Nat) (db : Db κ) : Db κ := { db with now := db.now + d }

end DukaPay.Backend.Remittances
