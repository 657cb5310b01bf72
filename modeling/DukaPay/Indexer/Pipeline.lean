import DukaPay.Contractlib.Process
import DukaPay.Contractlib.Timeline

/-! The fetcher of a contract and the worker that takes its batches, as one process: the fetcher
waits for the acknowledgement of a batch before it reads on. -/
namespace DukaPay.Indexer
open Contractlib
variable {Value : Type}

structure RawEvent (Value : Type) where
  kind : String
  ledger : Nat
  ledgerClosedAt : String
  contractId : String
  id : String
  pagingToken : String
  topic : List String
  value : Value
  txHash : String
  deriving DecidableEq

structure DecodedEvent (Value : Type) where
  id : String
  pagingToken : String
  contractId : String
  eventType : String
  ledger : Nat
  ledgerClosedAt : String
  txHash : String
  topics : List String
  value : Value
  shard : Nat

def decode (raw : RawEvent Value) (shard : Nat) : Except String (DecodedEvent Value) :=
  .ok {
    id := raw.id
    pagingToken := if raw.pagingToken = "" then raw.id else raw.pagingToken
    contractId := raw.contractId
    eventType := raw.topic.head?.getD "unknown"
    ledger := raw.ledger
    ledgerClosedAt := raw.ledgerClosedAt
    txHash := raw.txHash
    topics := raw.topic
    value := raw.value
    shard }

inductive CheckpointBackend
  | file
  | postgres

structure Config where
  finalityDepth : Nat
  batchSize : Nat
  maxEventRetries : Nat
  shard : Nat
  checkpoint : CheckpointBackend

def u32Max : Nat := 4294967295

def nextLedger (ledger : Nat) : Nat := (ledger + 1) % (u32Max + 1)

structure DeadLetterRecord (Value : Type) where
  eventId : String
  contractId : String
  ledger : Nat
  attempts : Nat
  error : String
  event : RawEvent Value

structure Store (Value : Type) where
  checkpoint : Option Nat
  emitted : List (DecodedEvent Value)
  deadLetters : List (DeadLetterRecord Value)
  firstStart : Option Nat

def Store.empty : Store Value where
  checkpoint := none
  emitted := []
  deadLetters := []
  firstStart := none

structure Page (Value : Type) where
  events : List (RawEvent Value)
  cursor : Option String

inductive SaveOutcome
  | saved
  | failed
  | unknown

inductive Request (Value : Type)
  | latestLedger (starting : Bool)
  | getEvents (startLedger tip limit : Nat)
  | emit (event : DecodedEvent Value)
  | deadLetter
  | save (ledger : Nat)

structure Answer (Value : Type) where
  latest : Option Nat := none
  pages : List (Page Value) := []
  emitError : Option String := none
  deadLetterWritten : Bool := true
  save : SaveOutcome := .saved

inductive Exit
  | latestLedgerFailed

abbrev Program (Value : Type) := Process Exit (Request Value) (Answer Value) (Store Value)

section

def collectEvents (safeTip cap : Nat) :
    List (RawEvent Value) → List (Page Value) → Option (List (RawEvent Value))
  | _,[] => none
  | collected,page :: pages =>
    let collected := collected ++ page.events.filter fun ev => ev.ledger ≤ safeTip
    match page.cursor with
    | some _ =>
      if page.events ≠ [] ∧ collected.length < cap then collectEvents safeTip cap collected pages
      else some collected
    | none => some collected

def Store.noteStart (s : Store Value) (ledger : Nat) : Store Value :=
  { s with firstStart := some (s.firstStart.getD ledger) }

def resume (cfg : Config) : Program Value Nat := do
  let checkpoint ← Process.get Store.checkpoint
  match checkpoint with
  | some cp => pure (nextLedger cp)
  | none => do
    let latest ← Process.query (.latestLedger true) Answer.latest
    match latest with
    | none => Process.throw .latestLedgerFailed
    | some tip => do
      Process.modify fun s => .ok (s.noteStart (tip - cfg.finalityDepth))
      pure (tip - cfg.finalityDepth)

end

variable (cfg : Config)

def emitAttempts (raw : RawEvent Value) : Nat → String → Program Value (Option String)
  | 0,lastError => pure (some lastError)
  | n + 1,_ =>
    match decode raw cfg.shard with
    | .ok ev => do
      let error ← Process.query (.emit ev) Answer.emitError
      match error with
      | none => do
        Process.modify fun s => .ok { s with emitted := s.emitted ++ [ev] }
        pure none
      | some error => emitAttempts raw n error
    | .error error => emitAttempts raw n error

def eventKey (contractId eventId : String) : String := contractId ++ ":" ++ eventId

def Store.push (s : Store Value) (raw : RawEvent Value) (error : String) (attempts : Nat)
    (written : Bool) : Store Value :=
  if s.deadLetters.any fun record =>
      eventKey record.contractId record.eventId = eventKey raw.contractId raw.id then s
  else if written then
    { s with deadLetters := s.deadLetters ++ [{
        eventId := raw.id, contractId := raw.contractId, ledger := raw.ledger, attempts, error
        event := raw }] }
  else s

def processEvent (raw : RawEvent Value) : Program Value Bool := do
  let error ← emitAttempts cfg raw (cfg.maxEventRetries + 1) ""
  match error with
  | none => pure true
  | some error => do
    let written ← Process.query .deadLetter Answer.deadLetterWritten
    Process.modify fun s =>
      .ok (s.push raw error (min (cfg.maxEventRetries + 1) u32Max) written)
    pure false

def processBatch (events : List (RawEvent Value)) : Program Value Bool :=
  events.foldlM (fun ok raw => do
    let emitted ← processEvent cfg raw
    pure (ok && emitted)) true

def CheckpointBackend.save (ledger : Nat) : CheckpointBackend → Option Nat → Option Nat
  | .file,_ => some ledger
  | .postgres,none => some ledger
  | .postgres,some last => some (max last ledger)

def Store.save (s : Store Value) (ledger : Nat) : Store Value :=
  { s with checkpoint := cfg.checkpoint.save ledger s.checkpoint }

def saveCheckpoint (throughLedger : Nat) (emitted : Bool) : Program Value Bool :=
  if emitted then do
    let outcome ← Process.query (.save throughLedger) Answer.save
    match outcome with
    | .saved => do
      Process.modify fun s => .ok (s.save cfg throughLedger)
      pure true
    | .failed => pure false
    | .unknown => do
      Process.modify fun s => .ok (s.save cfg throughLedger)
      pure false
  else pure false

def fetchRound (next : Nat) : Program Value Nat := do
  let latest ← Process.query (.latestLedger false) Answer.latest
  match latest with
  | none => pure next
  | some tip =>
    let safeTip := tip - cfg.finalityDepth
    if safeTip < next then pure next
    else do
      let pages ← Process.query (.getEvents next tip cfg.batchSize) Answer.pages
      match collectEvents safeTip (cfg.batchSize * 4) [] pages with
      | none => pure next
      | some collected => do
        let through := max (collected.foldl (fun m ev => max m ev.ledger) next) safeTip
        let emitted ← processBatch cfg collected
        let done ← saveCheckpoint cfg through emitted
        if done then pure (nextLedger through) else pure next

def fetcher : System Exit (Request Value) (Answer Value) (Store Value) Nat Empty where
  boot := resume cfg
  loop := fetchRound cfg
  interfere e := nomatch e

end DukaPay.Indexer
