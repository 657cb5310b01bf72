import DukaPay.Contractlib.Rows
import DukaPay.Contractlib.Sql
import DukaPay.Contractlib.Threads
import Mathlib.Data.List.Sort

/-! An event is posted to the callback of a subscription, and the outcome is stored as a delivery.
-/
namespace DukaPay.Backend.Webhooks
open Contractlib List

inductive Json
  | null
  | bool (b : Bool)
  | num (text : String)
  | str (text : String)
  | arr (items : List Json)
  | obj (fields : List (String × Json))

abbrev Payload := List (String × Json)

/-- The configuration; the size of a payload as JSON text; and `decryptField`, which may throw. -/
structure Env where
  maxPayloadBytes : Nat
  byteLength : Payload → Nat
  decryptField : String → String → Option String

structure Subscription where
  id : Nat
  callbackUrl : String
  eventTypes : List String
  secret : Option String
  isActive : Bool

abbrev Key := Nat × String

structure Delivery where
  id : Nat
  subscriptionId : Nat
  eventId : String
  eventType : String
  payload : Payload
  attemptCount : Nat
  lastStatusCode : Option Nat
  lastError : Option String
  deliveredAt : Option Int
  nextRetryAt : Option Int

def Delivery.key (d : Delivery) : Key := (d.subscriptionId,d.eventId)

structure Post where
  key : Key
  deliveryId : Option Nat

structure Db where
  subscriptions : List Subscription
  deliveries : List Delivery
  nextId : Nat
  now : Int
  posts : List Post
  late : List Key

inductive Failure
  | disallowed
  | request (message : String)
  | undecryptable
  | oversized
  | database
  deriving DecidableEq

inductive Statement
  | selectSubscription
  | selectDue
  | refresh
  | check (post : Post)
  | post (post : Post)
  | response (post : Post)
  | insert (key : Key)
  | update (key : Key)

structure Answer where
  fault : Fault
  check : Except Failure Unit
  response : Except String Nat

abbrev Program := Thread Failure Statement Answer Db

def retryDelaysMs : List Int := [5 * 60 * 1000,15 * 60 * 1000,45 * 60 * 1000]

def maxRetryAttempts : Nat := retryDelaysMs.length + 1

def getRetryDelayMs (attemptNumber : Nat) : Int :=
  retryDelaysMs.getD (min (attemptNumber - 1) (retryDelaysMs.length - 1)) (45 * 60 * 1000)

section
variable (env : Env) (payload : Payload)
variable (originalPayloadBytes : Nat)

def summaryHeader : Payload :=
  [("truncated",.bool true),("reason",.str "payload_too_large"),
    ("originalPayloadBytes",.num (toString originalPayloadBytes)),
    ("maxPayloadBytes",.num (toString env.maxPayloadBytes))]

def passthroughKeys : List String := ["eventId","eventType","loanId","address","ledger"]

def summarizeOversizedPayload : Payload :=
  summaryHeader env originalPayloadBytes ++
  passthroughKeys.filterMap (fun key => (payload.lookup key).map (key,·)) ++
  match payload.lookup "topics" with
  | some (.arr topics) => [("topicsCount",.num (toString topics.length))]
  | _ => []

def stringField (key : String) : Payload :=
  match payload.lookup key with
  | some (.str text) => [(key,.str text)]
  | _ => []

def summarizeOversizedPayloadMinimal : Payload :=
  summaryHeader env originalPayloadBytes ++ stringField payload "eventId" ++
    stringField payload "eventType"

def prepareWebhookPayload : Option Payload :=
  let payloadBytes := env.byteLength payload
  if env.maxPayloadBytes < payloadBytes then
    let summary := summarizeOversizedPayload env payload payloadBytes
    let summary := if env.maxPayloadBytes < env.byteLength summary then
      summarizeOversizedPayloadMinimal env payload payloadBytes else summary
    if env.maxPayloadBytes < env.byteLength summary then none else some summary
  else some payload

def decryptWebhookSecret (token : String) (subscriptionId : Nat) : Option String :=
  if "pii:v".toList.isPrefixOf token.toList then env.decryptField token (toString subscriptionId)
  else some token

def plainSecret (secret : Option String) (subscriptionId : Nat) : Option (Option String) :=
  match secret.filter (· ≠ "") with
  | none => some none
  | some token => (decryptWebhookSecret env token subscriptionId).map some

end

section
variable (env : Env)

def sql {α : Type} (statement : Statement) (f : Answer → Db → Except Failure α × Db) : Program α :=
  .faulty statement Answer.fault .database f

def Db.arrived (db : Db) (key : Key) : Bool :=
  db.deliveries.any fun d => decide (d.key = key) && d.deliveredAt.isSome

def Db.post (post : Post) (db : Db) : Db :=
  { db with
    posts := post :: db.posts
    late := if db.arrived post.key then post.key :: db.late else db.late }

def startPost (post : Post) : Program Unit := .statement (.post post) fun _ db => (.ok (),db.post post)

def awaitResponse (post : Post) : Program Nat :=
  .statement (.response post) fun i db => (i.response.mapError .request,db)

def postWebhook (post : Post) : Program Nat := do
  .statement (.check post) fun i db => (i.check,db)
  startPost post
  awaitResponse post

def ok (status : Nat) : Bool := decide (200 ≤ status ∧ status ≤ 299)

def Failure.message : Failure → String
  | .request message => message
  | .disallowed => "Webhook callback URL resolves to a disallowed address"
  | .undecryptable | .oversized | .database => "Unknown webhook error"

def statusError (status : Nat) : String := "Webhook returned status " ++ toString status

structure Due where
  delivery : Delivery
  callbackUrl : String
  secret : Option String

def recordAttempt (d : Delivery) (f : Int → Delivery → Delivery) : Program Unit :=
  sql (.update d.key) fun _ db =>
    (.ok (),{ db with deliveries := updateRow Delivery.id d.id (f db.now) db.deliveries })

def nextRetry (now : Int) (attemptCount : Nat) : Option Int :=
  if attemptCount < maxRetryAttempts then some (now + getRetryDelayMs attemptCount) else none

def delivered (newAttemptCount status : Nat) (now : Int) (d : Delivery) : Delivery :=
  { d with
    attemptCount := newAttemptCount
    lastStatusCode := some status
    deliveredAt := some now
    lastError := none
    nextRetryAt := none }

def refused (newAttemptCount status : Nat) (now : Int) (d : Delivery) : Delivery :=
  { d with
    attemptCount := newAttemptCount
    lastStatusCode := some status
    lastError := some (statusError status)
    nextRetryAt := nextRetry now newAttemptCount }

def errored (newAttemptCount : Nat) (e : Failure) (now : Int) (d : Delivery) : Delivery :=
  { d with
    attemptCount := newAttemptCount
    lastError := some e.message
    nextRetryAt := if e = .disallowed then none else nextRetry now newAttemptCount }

def retryWebhookDelivery (d : Delivery) : Program Unit :=
  match prepareWebhookPayload env d.payload with
  | none => throw .oversized
  | some _ =>
    tryCatch
      (do
        let status ← postWebhook ⟨d.key,some d.id⟩
        if ok status then recordAttempt d (delivered (d.attemptCount + 1) status)
        else recordAttempt d (refused (d.attemptCount + 1) status))
      fun e => recordAttempt d (errored (d.attemptCount + 1) e)

def isDue (now : Int) (d : Delivery) : Bool :=
  d.deliveredAt.isNone && d.nextRetryAt.any (decide <| · ≤ now) &&
    decide (d.attemptCount < maxRetryAttempts)

def Db.due (db : Db) : List Due :=
  (db.deliveries.filter (isDue db.now)).filterMap fun d =>
    (selectRow Subscription.id d.subscriptionId db.subscriptions).map fun s =>
      ⟨d,s.callbackUrl,s.secret⟩

def Db.selection (db : Db) : List Due :=
  (db.due.insertionSort fun a b =>
    a.delivery.nextRetryAt.getD 0 ≤ b.delivery.nextRetryAt.getD 0).take 100

def deliveryColumns : List String :=
  ["id","subscription_id","event_id","event_type","payload","attempt_count","last_status_code",
    "last_error","delivered_at","next_retry_at","created_at","updated_at"]

def subscriptionColumns : List String :=
  ["id","callback_url","event_types","secret","is_active","created_at","updated_at","max_attempts"]

/-- The `SELECT` of the due deliveries joins the two tables and names both tables' `id` plainly. -/
def dueStatement : Sql.Statement where
  tables := [deliveryColumns,subscriptionColumns]
  columns := ["id","subscription_id","callback_url","secret","event_id","event_type","payload",
    "attempt_count"]
  params := [(1,.typed),(2,.typed)]

def selectDue : Program (List Due) :=
  sql .selectDue fun _ db => dueStatement.answer (.error .database,db) (.ok db.selection,db)

def retryRow (row : Due) : Program Unit :=
  if maxRetryAttempts ≤ row.delivery.attemptCount then pure ()
  else match plainSecret env row.secret row.delivery.subscriptionId with
    | none => throw .undecryptable
    | some _ => retryWebhookDelivery env row.delivery

def processRetries : Program Unit :=
  tryCatch
    (do
      let rows ← selectDue
      Thread.forEach rows (retryRow env))
    fun _ => pure ()

/-- `refreshWebhookRetryQueueDepth` only sets a gauge. -/
def refresh : Program Unit := .statement .refresh fun _ db => (.ok (),db)

def tick : Program Unit := do
  refresh
  processRetries env
  refresh

structure Event where
  eventId : String
  eventType : String
  payload : Payload

def Db.inserted (row : Int → Nat → Delivery) (db : Db) : Db :=
  { db with
    deliveries := db.deliveries ++ [row db.now db.nextId]
    nextId := db.nextId + 1 }

def insertDelivery (key : Key) (row : Int → Nat → Delivery) : Program Unit :=
  sql (.insert key) fun _ db => (.ok (),db.inserted row)

section
variable (subscriptionId : Nat) (event : Event) (payload : Payload)

def firstDelivered (status : Nat) (now : Int) (id : Nat) : Delivery :=
  ⟨id,subscriptionId,event.eventId,event.eventType,payload,1,some status,none,some now,none⟩

def firstFailed (status : Option Nat) (e : String) (now : Int) (id : Nat) : Delivery :=
  ⟨id,subscriptionId,event.eventId,event.eventType,payload,1,status,some e,none,
    some (now + getRetryDelayMs 1)⟩

def sendToWebhook : Program Unit :=
  let key : Key := (subscriptionId,event.eventId)
  tryCatch
    (do
      let status ← postWebhook ⟨key,none⟩
      insertDelivery key <|
        if ok status then firstDelivered subscriptionId event payload status
        else firstFailed subscriptionId event payload (some status) (statusError status))
    fun e => insertDelivery key (firstFailed subscriptionId event payload none e.message)

end

def dispatch (subscriptionId : Nat) (event : Event) : Program Unit :=
  match prepareWebhookPayload env event.payload with
  | none => pure ()
  | some payload =>
    tryCatch
      (do
        let hook ← sql .selectSubscription fun _ db =>
          (.ok ((selectRow Subscription.id subscriptionId db.subscriptions).filter fun s =>
            s.isActive && decide (event.eventType ∈ s.eventTypes)),db)
        match hook with
        | none => pure ()
        | some s =>
          match plainSecret env s.secret s.id with
          | none => throw .undecryptable
          | some _ => sendToWebhook subscriptionId event payload)
      fun _ => pure ()

def pass (d : Nat) (db : Db) : Db := { db with now := db.now + d }

end

lemma dueStatement_refused : ¬ dueStatement.Accepted := by decide

/-- The statement of the processor fails, whatever is due, and leaves the tables alone. -/
lemma selectDue_answer (db : Db) :
    dueStatement.answer ((.error .database,db) : Except Failure (List Due) × Db)
      (.ok db.selection,db) = (.error .database,db) :=
  Sql.Statement.answer_refused dueStatement_refused _ _

end DukaPay.Backend.Webhooks
