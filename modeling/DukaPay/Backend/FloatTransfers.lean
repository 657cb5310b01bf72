import DukaPay.Contractlib.Rows
import DukaPay.Contractlib.Sql
import DukaPay.Contractlib.Threads
import Mathlib.Algebra.Order.Ring.Rat

/-! A transfer is initiated under the limits of the pair of agents, with the approval of its
initiator; further approvals execute it, and a rejection ends it. -/
namespace DukaPay.Backend.FloatTransfers
open Contractlib

inductive Status
  | pendingApproval
  | completed
  | failed
  | rejected
  | cancelled
  deriving DecidableEq

structure Transfer where
  id : String
  fromAgent : String
  toAgent : String
  amount : ℚ
  reason : Option String
  status : Status
  requiredApprovals : Nat
  approvalCount : Nat
  createdBy : String
  createdAt : Int
  deriving DecidableEq

inductive Role
  | initiator
  | recipient
  | admin

structure Approval where
  transferId : String
  approver : String
  role : Role

structure PairLimits where
  fromAgent : String
  toAgent : String
  dailyLimit : ℚ
  weeklyLimit : ℚ

structure Db (κ : Type) where
  transfers : List Transfer
  approvals : List Approval
  limits : List PairLimits
  now : Int
  seen : κ → List Transfer
  executions : List κ

inductive Failure
  | selfTransfer
  | amountNotPositive
  | notSource
  | dailyLimitExceeded (limit total amount : ℚ)
  | weeklyLimitExceeded (limit total amount : ℚ)
  | notFound (transferId : String)
  | alreadyInStatus (status : Status)
  | notApprover
  | alreadyApproved (approver : String)
  | notRejector
  | database

inductive Statement
  | selectLimits
  | selectDaily
  | selectWeekly
  | insertTransfer
  | selectTransfer
  | selectApproval
  | insertApproval (approval : Approval)
  | audit
  | build
  | updateTransfer
  | rejectTransfer
  | selectApprovals

/-- What comes from outside: the fate of a statement, the id of a new transfer, and the unsigned
transaction or the error of `buildTransferToAgentTx`. -/
structure Answer where
  fault : Fault
  id : String
  built : Except String String

abbrev Program (κ : Type) := Thread Failure Statement Answer (Db κ)

structure InitiateTransferInput where
  fromAgent : String
  toAgent : String
  amount : ℚ
  reason : Option String
  createdBy : String
  userRole : Option String

structure ApproveTransferInput where
  transferId : String
  approver : String
  userRole : Option String

structure RejectTransferInput where
  transferId : String
  rejector : String
  userRole : Option String

def defaultDailyLimit : ℚ := 100000

def defaultWeeklyLimit : ℚ := 500000

def day : Int := 24 * 3600 * 1000000

def week : Int := 7 * day

def ofPair (fromAgent toAgent : String) (transfers : List Transfer) : List Transfer :=
  transfers.filter fun t => t.fromAgent = fromAgent ∧ t.toAgent = toAgent

def total (since : Int) (transfers : List Transfer) : ℚ :=
  ((transfers.filter fun t =>
    (t.status = .pendingApproval ∨ t.status = .completed) ∧ since ≤ t.createdAt).map
      (·.amount)).sum

variable {κ : Type} [DecidableEq κ]

namespace Db
variable (db : Db κ)

def transfer? (id : String) : Option Transfer := selectRow Transfer.id id db.transfers

def updateTransfer (id : String) (f : Transfer → Transfer) : Db κ :=
  { db with transfers := updateRow Transfer.id id f db.transfers }

def approvalsOf (id : String) : List Approval := db.approvals.filter (·.transferId = id)

def see (k : κ) : Db κ :=
  { db with seen := fun j => if j = k then db.transfers else db.seen j }

end Db

def pass (d : Nat) (db : Db κ) : Db κ := { db with now := db.now + d }

def sql {α : Type} (statement : Statement) (f : Answer → Db κ → Except Failure α × Db κ) :
    Program κ α :=
  .faulty statement Answer.fault .database f

def logAudit : Program κ Unit := .statement .audit fun _ db => (.ok (),db)

def getPairLimits (fromAgent toAgent : String) : Program κ (ℚ × ℚ) :=
  .statement .selectLimits fun i db =>
    match i.fault,selectRow (fun l => (l.fromAgent,l.toAgent)) (fromAgent,toAgent) db.limits with
    | .none,some row => (.ok (row.dailyLimit,row.weeklyLimit),db)
    | _,_ => (.ok (defaultDailyLimit,defaultWeeklyLimit),db)

variable (k : κ)
variable (fromAgent toAgent : String)

def selectDaily : Program κ ℚ :=
  sql .selectDaily fun _ db =>
    (.ok (total (db.now - day) (ofPair fromAgent toAgent db.transfers)),db.see k)

def selectWeekly : Program κ ℚ :=
  sql .selectWeekly fun _ db =>
    (.ok (total (db.now - week) (ofPair fromAgent toAgent db.transfers)),db)

def checkLimits (amount : ℚ) : Program κ Unit := do
  let (dailyLimit,weeklyLimit) ← getPairLimits fromAgent toAgent
  let dailyTotal ← selectDaily k fromAgent toAgent
  if dailyLimit < dailyTotal + amount then
    throw (.dailyLimitExceeded dailyLimit dailyTotal amount)
  else do
    let weeklyTotal ← selectWeekly fromAgent toAgent
    if weeklyLimit < weeklyTotal + amount then
      throw (.weeklyLimitExceeded weeklyLimit weeklyTotal amount)
    else pure ()

def insertTransfer (input : InitiateTransferInput) : Program κ Transfer :=
  sql .insertTransfer fun i db =>
    match db.transfer? i.id with
    | some _ => (.error .database,db)
    | none =>
      let transfer : Transfer := ⟨i.id,input.fromAgent,input.toAgent,input.amount,input.reason,
        .pendingApproval,2,1,input.createdBy,db.now⟩
      (.ok transfer,{ db with transfers := db.transfers ++ [transfer] })

def Db.Approved (db : Db κ) (approval : Approval) : Prop :=
  ∃ a ∈ db.approvals, a.transferId = approval.transferId ∧ a.approver = approval.approver

instance (db : Db κ) (approval : Approval) : Decidable (db.Approved approval) :=
  inferInstanceAs (Decidable (∃ a ∈ db.approvals, _))

def insertApproval (approval : Approval) : Program κ Unit :=
  sql (.insertApproval approval) fun _ db =>
    if db.Approved approval then (.error .database,db)
    else (.ok (),{ db with approvals := db.approvals ++ [approval] })

def isAdmin (userRole : Option String) : Bool :=
  decide (userRole = some "admin" ∨ userRole = some "super_admin")

def initiateTransfer (input : InitiateTransferInput) : Program κ (Transfer × List Approval) := do
  if input.fromAgent = input.toAgent then throw .selfTransfer
  else if input.amount ≤ 0 then throw .amountNotPositive
  else if input.createdBy ≠ input.fromAgent ∧ isAdmin input.userRole = false then throw .notSource
  else do
    checkLimits k input.fromAgent input.toAgent input.amount
    let role := if input.createdBy = input.fromAgent then Role.initiator else .admin
    let transfer ← insertTransfer input
    let approval : Approval := ⟨transfer.id,input.createdBy,role⟩
    insertApproval approval
    logAudit
    pure (transfer,[approval])

def selectTransfer (id : String) : Program κ (Option Transfer) :=
  sql .selectTransfer fun _ db => (.ok (db.transfer? id),db.see k)

def approverRole (transfer : Transfer) (input : ApproveTransferInput) : Option Role :=
  if input.approver = transfer.fromAgent then some .initiator
  else if input.approver = transfer.toAgent then some .recipient
  else if isAdmin input.userRole then some .admin
  else none

def selectApproval (id approver : String) : Program κ Bool :=
  sql .selectApproval fun _ db =>
    (.ok (decide (∃ a ∈ db.approvals, a.transferId = id ∧ a.approver = approver)),db)

variable (vault : Bool)

def build (k : κ) : Program κ (Except String (Option String)) :=
  .statement .build fun i db =>
    (.ok (if vault then i.built.map some else .ok none),
      { db with executions := k :: db.executions })

def transferColumns : List String :=
  ["id","from_agent","to_agent","amount","reason","status","required_approvals","approval_count",
    "created_by","tx_hash","created_at","updated_at"]

def countStatement : Sql.Statement where
  tables := [transferColumns]
  columns := ["approval_count","updated_at","id"]
  params := [(2,.typed),(1,.typed)]

/-- The `UPDATE` of an executed transfer sets `error_message`, which the table does not have. -/
def executeStatement : Sql.Statement where
  tables := [transferColumns]
  columns := ["status","approval_count","updated_at","error_message","id"]
  params := [(3,.typed),(2,.typed),(4,.typed),(1,.typed)]

def updateTransfer (statement : Sql.Statement) (id : String) (f : Transfer → Transfer) :
    Program κ (Option Transfer) :=
  sql .updateTransfer fun _ db => statement.answer (.error .database,db)
    (.ok ((db.updateTransfer id f).transfer? id),db.updateTransfer id f)

def selectApprovals (id : String) : Program κ (List Approval) :=
  sql .selectApprovals fun _ db => (.ok (db.approvalsOf id),db)

structure ApproveResult where
  transfer : Option Transfer
  approvals : List Approval
  executedOnChain : Bool
  unsignedTxXdr : Option String

def executedStatus : Except String (Option String) → Status
  | .error message => if message = "" then .completed else .failed
  | .ok _ => .completed

def executeTransfer (k : κ) (transferId : String) (newCount : Nat) : Program κ ApproveResult := do
  let built ← build vault k
  let onChainError := match built with
    | .error message => some message
    | .ok _ => none
  let transfer ← updateTransfer executeStatement transferId fun t =>
    { t with status := executedStatus built, approvalCount := newCount }
  logAudit
  let approvals ← selectApprovals transferId
  pure ⟨transfer,approvals,onChainError.isNone,built.toOption.join⟩

def countApproval (transferId : String) (newCount : Nat) : Program κ ApproveResult := do
  let transfer ← updateTransfer countStatement transferId fun t =>
    { t with approvalCount := newCount }
  let approvals ← selectApprovals transferId
  pure ⟨transfer,approvals,false,none⟩

def recordApproval (k : κ) (transfer : Transfer) (approval : Approval) :
    Program κ ApproveResult := do
  insertApproval approval
  let newCount := transfer.approvalCount + 1
  logAudit
  if transfer.requiredApprovals ≤ newCount then executeTransfer vault k approval.transferId newCount
  else countApproval approval.transferId newCount

def approveTransfer (k : κ) (input : ApproveTransferInput) : Program κ ApproveResult := do
  let row ← selectTransfer k input.transferId
  match row with
  | none => throw (.notFound input.transferId)
  | some transfer =>
    if transfer.status ≠ .pendingApproval then throw (.alreadyInStatus transfer.status)
    else match approverRole transfer input with
      | none => throw .notApprover
      | some role => do
        let exists? ← selectApproval input.transferId input.approver
        if exists? then throw (.alreadyApproved input.approver)
        else recordApproval vault k transfer ⟨input.transferId,input.approver,role⟩

def updateRejected (id : String) : Program κ (Option Transfer) :=
  sql .rejectTransfer fun _ db =>
    let db' := db.updateTransfer id fun t => { t with status := .rejected }
    (.ok (db'.transfer? id),db')

def mayReject (transfer : Transfer) (input : RejectTransferInput) : Bool :=
  decide (input.rejector = transfer.fromAgent ∨ input.rejector = transfer.toAgent ∨
    input.userRole = some "admin")

def rejectTransfer (input : RejectTransferInput) : Program κ (Option Transfer) := do
  let row ← selectTransfer k input.transferId
  match row with
  | none => throw (.notFound input.transferId)
  | some transfer =>
    if transfer.status ≠ .pendingApproval then throw (.alreadyInStatus transfer.status)
    else if mayReject transfer input = false then throw .notRejector
    else do
      let updated ← updateRejected input.transferId
      logAudit
      pure updated

end DukaPay.Backend.FloatTransfers
