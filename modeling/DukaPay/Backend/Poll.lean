import DukaPay.Backend.EventStore
import DukaPay.Contractlib.Process
import DukaPay.Contractlib.Timeline

/-! `pollOnce` as a process: every awaited statement is one atomic step on the tables, every call of
the RPC a question. -/
namespace DukaPay.Backend
open Contractlib

/-- What happened to ledgers: a range was handed to a `storeEvents` pass that was committed or found
no events, or everything from a ledger on was rolled back. -/
inductive Trace
  | handed (startLedger endLedger : Nat)
  | rolledBack (ledger : Nat)

structure World where
  db : Database
  trace : List Trace

structure Page (ScVal : Type) where
  events : List (SorobanRawEvent ScVal)
  nextCursor : Option String

inductive Request
  | latestLedger
  | events (startLedger endLedger : Nat)
  | firstRow
  | aborted

structure Answer (ScVal : Type) where
  latest : Option Nat := none
  pages : List (Page ScVal) := []
  row : Nat := 0
  aborted : List Abort := []

structure CanonicalEvent where
  id : String
  ledger : Nat
  txHash : String
  contractId : String
  topics : List String
  value : String

structure Indexer (ScVal : Type) where
  rt : Runtime ScVal
  pg : Postgres
  scores : ScoreConfig
  contractIds : List String
  batchSize : Nat
  finalityDepth : Nat
  localeLe : String → String → Bool
  sha256 : List CanonicalEvent → String

abbrev Program (ScVal : Type) := Process DbError Request (Answer ScVal) World

section
variable {ScVal : Type} (ix : Indexer ScVal)

def collectPages (startLedger endLedger : Nat) :
    Option String → List (Page ScVal) → Option (List (SorobanRawEvent ScVal))
  | _,[] => none
  | cursor,page :: pages =>
    let events := page.events.filter fun event =>
      startLedger ≤ event.ledger ∧ event.ledger ≤ endLedger
    let passedEnd := page.events.any fun event => endLedger < event.ledger
    match page.nextCursor with
    | none => some events
    | some nextCursor =>
      if nextCursor = "" ∨ some nextCursor = cursor ∨ events = [] ∨ passedEnd then some events
      else (collectPages startLedger endLedger (some nextCursor) pages).map (events ++ ·)

def eventsOfPages (startLedger endLedger : Nat) (pages : List (Page ScVal)) :
    Option (List (SorobanRawEvent ScVal)) :=
  (collectPages startLedger endLedger none pages).map
    (·.insertionSort fun a b => a.ledger ≤ b.ledger)

def fetchEventsInRange (startLedger endLedger : Nat) :
    Program ScVal (List (SorobanRawEvent ScVal)) := do
  let pages ← Process.query (.events startLedger endLedger) Answer.pages
  match eventsOfPages startLedger endLedger pages with
  | some events => pure events
  | none => Process.throw .transient

def canonicalEvent (event : SorobanRawEvent ScVal) : Except String CanonicalEvent := do
  let topics ← event.topic.mapM ix.rt.toXDR
  let value ← ix.rt.toXDR event.value
  pure {
    id := event.id, ledger := event.ledger, txHash := event.txHash
    contractId := event.contractId, topics, value }

def digestEvents (events : List (SorobanRawEvent ScVal)) : Except String String := do
  let sorted := events.insertionSort fun a b =>
    if a.ledger = b.ledger then ix.localeLe a.id b.id = true else a.ledger ≤ b.ledger
  let canonical ← sorted.mapM (canonicalEvent ix)
  pure (ix.sha256 canonical)

def digestProgram (events : List (SorobanRawEvent ScVal)) : Program ScVal String :=
  match digestEvents ix events with
  | .ok digest => pure digest
  | .error _ => Process.throw .invalidValue

def World.hand (w : World) (startLedger endLedger : Nat) : World :=
  { w with trace := w.trace ++ [.handed startLedger endLedger] }

def noteHanded (startLedger endLedger : Nat) : Program ScVal Unit :=
  Process.modify fun w => .ok (w.hand startLedger endLedger)

def quarantineProgram (event : SorobanRawEvent ScVal) : Program ScVal Unit :=
  match parseEvent ix.rt event with
  | .ok _ => pure ()
  | .error message =>
    Process.modify fun w => .ok { w with db := quarantineEvent event message w.db }

def storeStep (startLedger endLedger : Nat) (aborted : List Abort) (parsed : List ContractEvent)
    (w : World) : Except DbError (List ContractEvent × World) := do
  let (insertedEvents,db) ← storeWithRetries ix.pg ix.scores aborted parsed w.db
  pure (insertedEvents,{ w with db }.hand startLedger endLedger)

def announceProgram (insertedEvents : List ContractEvent) : Program ScVal Unit :=
  match (announce insertedEvents).2 with
  | .ok () => pure ()
  | .error e => Process.throw e

def storeProgram (startLedger endLedger : Nat) (events : List (SorobanRawEvent ScVal)) :
    Program ScVal Unit := do
  Process.forEach events (quarantineProgram ix)
  if parsedEvents ix.rt events = [] then noteHanded startLedger endLedger
  else do
    let aborted ← Process.query .aborted Answer.aborted
    let insertedEvents ←
      Process.step (storeStep ix startLedger endLedger aborted (parsedEvents ix.rt events))
    announceProgram insertedEvents

structure ProcessChunkResult where
  lastProcessedLedger : Nat
  rangeDigest : String

def processChunk (startLedger endLedger : Nat) : Program ScVal ProcessChunkResult :=
  if endLedger < startLedger then do
    let rangeDigest ← digestProgram ix []
    pure { lastProcessedLedger := startLedger - 1, rangeDigest }
  else do
    let events ← fetchEventsInRange startLedger endLedger
    if events = [] then do
      noteHanded startLedger endLedger
      let rangeDigest ← digestProgram ix []
      pure { lastProcessedLedger := endLedger, rangeDigest }
    else do
      storeProgram ix startLedger endLedger events
      let maxLedger := events.foldl (fun m event => max m event.ledger) startLedger
      let rangeDigest ← digestProgram ix events
      pure { lastProcessedLedger := max maxLedger endLedger, rangeDigest }

end

section

def World.cursor (w : World) : Nat := (w.db.indexerState.map (·.lastFinalizedLedger)).getD 0

def World.setCheckpoints (w : World) (checkpoints : List Checkpoint) : World :=
  { w with db := { w.db with checkpoints } }

def World.setIndexerState (w : World) (state : IndexerState) : World :=
  { w with db := { w.db with indexerState := some state } }

/-- Insert a row into `ledger_checkpoints`, which has `CHECK (range_end >= range_start)`. -/
def insertCheckpoint (rangeStart rangeEnd : Nat) (status : CheckpointStatus)
    (rangeDigest : Option String) (w : World) : Except DbError World :=
  if h : rangeStart ≤ rangeEnd then
    .ok (w.setCheckpoints
      (w.db.checkpoints ++ [⟨rangeStart,rangeEnd,status,rangeDigest,h⟩]))
  else .error .invalidValue

def Checkpoint.Is (status : CheckpointStatus) (rangeStart rangeEnd : Nat) (c : Checkpoint) : Prop :=
  c.status = status ∧ c.rangeStart = rangeStart ∧ c.rangeEnd = rangeEnd

instance (status : CheckpointStatus) (rangeStart rangeEnd : Nat) :
    DecidablePred (Checkpoint.Is status rangeStart rangeEnd) :=
  fun _ => inferInstanceAs (Decidable (_ ∧ _ ∧ _))

def setDigest (rangeStart rangeEnd : Nat) (digest : String) (w : World) : World :=
  w.setCheckpoints (w.db.checkpoints.map fun c =>
    if c.Is .verified rangeStart rangeEnd then { c with rangeDigest := some digest } else c)

def verifyRange (rangeStart rangeEnd : Nat) (digest : String) (w : World) : World :=
  w.setCheckpoints (w.db.checkpoints.map fun c =>
    if c.Is .suspect rangeStart rangeEnd then
      { c with status := .verified, rangeDigest := some digest }
    else c)

def Checkpoint.moveStart (c : Checkpoint) (rangeStart : Nat) : Except DbError Checkpoint :=
  if h : rangeStart ≤ c.rangeEnd then .ok { c with rangeStart, range_check := h }
  else .error .invalidValue

def shrinkRange (rangeStart rangeEnd newStart : Nat) (w : World) : Except DbError World := do
  let checkpoints ← w.db.checkpoints.mapM fun c =>
    if c.Is .suspect rangeStart rangeEnd then c.moveStart newStart else pure c
  pure (w.setCheckpoints checkpoints)

def latestVerified (checkpoints : List Checkpoint) : List Checkpoint :=
  checkpoints.filter fun c => c.status = .verified ∧
    ∀ c' ∈ checkpoints, c'.status = .verified → c'.rangeEnd ≤ c.rangeEnd

def lastRangeEnd (checkpoints : List Checkpoint) : Option Nat :=
  (checkpoints.map Checkpoint.rangeEnd).max?

def IndexerState.raise (state : IndexerState) (ledger : Nat) : IndexerState where
  lastLedger := max state.lastLedger ledger
  lastFinalizedLedger := max state.lastFinalizedLedger ledger

def insertIndexerState (ledger : Nat) (w : World) : Except DbError World :=
  match w.db.indexerState with
  | none => .ok (w.setIndexerState ⟨ledger,ledger⟩)
  | some _ => .error .invalidValue

def rollbackStep {ScVal : Type} (ix : Indexer ScVal) (ledger : Nat) (w : World) :
    Except DbError World := do
  let db ← rollbackFromLedger ix.scores ix.contractIds ledger w.db
  pure { db, trace := w.trace ++ [.rolledBack ledger] }

end

section
variable {ScVal : Type} (ix : Indexer ScVal)

def getLastIndexedLedger : Program ScVal Nat := do
  let state ← Process.get fun w => w.db.indexerState
  match state with
  | some row => pure row.lastFinalizedLedger
  | none => do
    Process.modify (insertIndexerState 0)
    pure 0

def updateLastIndexedLedger (ledger : Nat) : Program ScVal Unit := do
  let updated ← Process.step fun w =>
    match w.db.indexerState with
    | some state => .ok (true,w.setIndexerState (state.raise ledger))
    | none => .ok (false,w)
  if updated then pure () else Process.modify (insertIndexerState ledger)

def getLatestVerifiedCheckpoint : Program ScVal (Option Checkpoint) := do
  let row ← Process.query .firstRow Answer.row
  Process.get fun w =>
    let latest := latestVerified w.db.checkpoints
    latest[row % latest.length]?

def detectAndRollbackReorg : Program ScVal Bool := do
  let checkpoint ← getLatestVerifiedCheckpoint
  match checkpoint with
  | none => pure false
  | some c => do
    let events ← fetchEventsInRange c.rangeStart c.rangeEnd
    let currentDigest ← digestProgram ix events
    match c.rangeDigest with
    | none => do
      Process.modify fun w => .ok (setDigest c.rangeStart c.rangeEnd currentDigest w)
      pure false
    | some digest =>
      if currentDigest = digest then pure false
      else do
        Process.modify (rollbackStep ix c.rangeStart)
        pure true

def getSuspectRanges : Program ScVal (List (Nat × Nat)) :=
  Process.get fun w =>
    ((w.db.checkpoints.filter fun c => c.status = .suspect).map fun c =>
      (c.rangeStart,c.rangeEnd)).insertionSort fun a b => a.1 ≤ b.1

def backfillRange (finalizedTip : Nat) (range : Nat × Nat) : Program ScVal Unit :=
  let endLedger := min range.2 finalizedTip
  if endLedger < range.1 then pure ()
  else do
    let result ← processChunk ix range.1 endLedger
    if endLedger = range.2 then
      Process.modify fun w => .ok (verifyRange range.1 range.2 result.rangeDigest w)
    else do
      Process.modify (shrinkRange range.1 range.2 (endLedger + 1))
      Process.modify
        (insertCheckpoint range.1 endLedger .verified (some result.rangeDigest))

def backfillMissingRanges (finalizedTip : Nat) : Program ScVal Unit :=
  if finalizedTip = 0 then pure ()
  else do
    let ranges ← getSuspectRanges
    Process.forEach ranges (backfillRange ix finalizedTip)

def flagGap (rangeStart : Nat) (previousRangeEnd : Option Nat) : Program ScVal Unit :=
  match previousRangeEnd with
  | none => pure ()
  | some previous =>
    if previous + 1 < rangeStart then
      Process.modify (insertCheckpoint (previous + 1) (rangeStart - 1) .suspect none)
    else pure ()

def recordCheckpoint (rangeStart rangeEnd : Nat) (rangeDigest : String) : Program ScVal Unit := do
  let previousRangeEnd ← Process.get fun w => lastRangeEnd w.db.checkpoints
  flagGap rangeStart previousRangeEnd
  Process.modify (insertCheckpoint rangeStart rangeEnd .verified (some rangeDigest))

def indexNextBatch (checkpointAfterReorg finalizedLedger : Nat) : Program ScVal Unit := do
  let fromLedger := checkpointAfterReorg + 1
  let toLedger := min (fromLedger + ix.batchSize - 1) finalizedLedger
  let result ← processChunk ix fromLedger toLedger
  recordCheckpoint fromLedger result.lastProcessedLedger result.rangeDigest
  updateLastIndexedLedger result.lastProcessedLedger

def pollOnce : Program ScVal Unit := do
  let _ ← getLastIndexedLedger
  let latestLedger ← Process.query .latestLedger fun answer => answer.latest.getD 0
  if latestLedger = 0 then pure ()
  else do
    let finalizedLedger := latestLedger - ix.finalityDepth
    let _ ← detectAndRollbackReorg ix
    let checkpointAfterReorg ← getLastIndexedLedger
    backfillMissingRanges ix finalizedLedger
    if finalizedLedger ≤ checkpointAfterReorg then pure ()
    else indexNextBatch ix checkpointAfterReorg finalizedLedger

def advanceCursor (state : IndexerState) (w : World) : World :=
  if w.cursor ≤ state.lastFinalizedLedger then w.setIndexerState state else w

def pollSystem : System DbError Request (Answer ScVal) World Unit IndexerState where
  boot := pollOnce ix
  loop _ := pollOnce ix
  interfere := advanceCursor

end

variable {ScVal : Type} {w w' : World}

lemma insertCheckpoint_eq_ok {lo rangeEnd st dig}
    (h : insertCheckpoint lo rangeEnd st dig w = .ok w') : ∃ hr, w' = w.setCheckpoints
    (w.db.checkpoints ++ [⟨lo,rangeEnd,st,dig,hr⟩]) := by
  rw [insertCheckpoint] at h
  split at h
  · next hr =>
    cases h
    exact ⟨hr,rfl⟩
  · cases h

@[simp] lemma checkpoints_setCheckpoints (checkpoints) :
    (w.setCheckpoints checkpoints).db.checkpoints = checkpoints := rfl

/-- A poll that finds a changed range fails. -/
lemma rollbackStep_ne_ok {ix : Indexer ScVal} {n} : rollbackStep ix n w ≠ .ok w' := by
  intro h
  rw [rollbackStep,bind_eq_ok] at h
  obtain ⟨_,h,-⟩ := h
  exact rollbackFromLedger_ne_ok h

lemma insertIndexerState_eq_ok {n} (h : insertIndexerState n w = .ok w') :
    w.cursor = 0 ∧ w' = w.setIndexerState ⟨n,n⟩ := by
  rw [insertIndexerState] at h
  split at h
  · next hn =>
    cases h
    exact ⟨by rw [World.cursor,hn]; rfl,rfl⟩
  · cases h

lemma mem_latestVerified {cps c} (h : c ∈ latestVerified cps) : c ∈ cps ∧ c.status = .verified :=
  ⟨(List.mem_filter.mp h).1,(of_decide_eq_true (List.mem_filter.mp h).2).1⟩

lemma quarantineEvent_eq (ev : SorobanRawEvent ScVal) (msg : String) (db : Database) :
    ∃ quarantine, quarantineEvent ev msg db = { db with quarantineEvents := quarantine } := by
  rw [quarantineEvent]
  cases quarantineRow ev msg with
  | ok => exact ⟨_,rfl⟩
  | error => exact ⟨_,rfl⟩

end DukaPay.Backend
