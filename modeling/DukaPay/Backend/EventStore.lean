import DukaPay.Backend.PauseGuard
import DukaPay.Backend.Scores
import DukaPay.Contractlib.Table

/-! `storeEvents` parses raw events, quarantines those it cannot read, and writes the others with
their audit rows and score deltas in one transaction. -/
namespace DukaPay.Backend
open Contractlib List

def int4Param : JsNumber → Except DbError Int
  | .integer n => orFail (int4.check n) .integerOutOfRange
  | _ => .error .invalidValue

def nullable {α β : Type} (store : α → Except DbError β) : Option α → Except DbError (Option β)
  | none => .ok none
  | some a => some <$> store a

/-- The input functions of the database for the columns `amount` and `ledger_closed_at`. -/
structure Postgres where
  numeric : String → Option String
  timestamp : Option Int → Option Int

structure EventRow where
  eventId : VarChar 255
  eventType : EventType
  loanId : Option Int
  address : Option (VarChar 255)
  amount : Option String
  ledger : Nat
  ledgerClosedAt : Int
  txHash : VarChar 255
  contractId : VarChar 255
  topics : List String
  value : String
  interestRateBps : Option Int
  termLedgers : Option Int
  deriving DecidableEq

def eventRow (pg : Postgres) (event : ContractEvent) : Except DbError EventRow := do
  let eventId ← varchar 255 event.eventId
  let loanId ← nullable int4Param event.loanId
  let address ← nullable (varchar 255) event.address
  let amount ← nullable (fun text => orFail (pg.numeric text) .invalidValue) event.amount
  let _ ← orFail (int4.check event.ledger) .integerOutOfRange
  let ledgerClosedAt ← orFail (pg.timestamp event.ledgerClosedAt) .invalidValue
  let txHash ← varchar 255 event.txHash
  let contractId ← varchar 255 event.contractId
  let interestRateBps ← nullable int4Param event.interestRateBps
  let termLedgers ← nullable int4Param event.termLedgers
  pure {
    eventId, eventType := event.eventType, loanId, address, amount, ledger := event.ledger,
    ledgerClosedAt, txHash, contractId, topics := event.topics, value := event.value,
    interestRateBps, termLedgers }

/-- Two rows agree on a unique key of `contract_events`: the event id; the loan, type and ledger; or
the loan and type of an approval or a default. -/
def Conflicts (row row' : EventRow) : Prop :=
  row.eventId = row'.eventId ∨
  (row.loanId.isSome ∧ row.loanId = row'.loanId ∧ row.eventType = row'.eventType ∧
    row.ledger = row'.ledger) ∨
  (row.loanId.isSome ∧ row.loanId = row'.loanId ∧ row.eventType = row'.eventType ∧
    (row.eventType = .LoanApproved ∨ row.eventType = .LoanDefaulted))

instance : DecidableRel Conflicts := fun _ _ => inferInstanceAs (Decidable (_ ∨ _ ∨ _))

lemma conflicts_refl (row) : Conflicts row row := .inl rfl

inductive AuditPayload
  | adminConfig (eventId : String) (eventType : EventType) (loanId : Option JsNumber)
      (amount : Option String) (ledger : Nat) (txHash : String)
  | loanApproved (eventId : String) (loanId : Option JsNumber) (borrower : Option String)
      (txHash : String)
  | reversal (reversedEventId : String) (rollbackLedger : Nat)
  | other (eventId : Option String)
  deriving DecidableEq

def AuditPayload.eventId? : AuditPayload → Option String
  | .adminConfig eventId .. => some eventId
  | .loanApproved eventId .. => some eventId
  | .reversal .. => none
  | .other eventId => eventId

structure AuditRow where
  actor : VarChar 255
  action : VarChar 255
  target : Option (VarChar 255)
  payload : AuditPayload
  ipAddress : Option String
  status : Nat
  deriving DecidableEq

def loanIdText : Option JsNumber → String
  | some (.integer n) => toString n
  | _ => "unknown"

def adminConfigAudit (event : ContractEvent) : Except DbError AuditRow := do
  let actor ← varchar 255 (event.address.getD "SYSTEM")
  let action ← varchar 255 ("ADMIN_CONFIG_" ++ event.eventType.name)
  let target ← varchar 255 ("contract:" ++ event.contractId)
  pure {
    actor, action, target := some target
    payload := .adminConfig event.eventId event.eventType event.loanId event.amount event.ledger
      event.txHash
    ipAddress := some "internal-indexer", status := 200 }

def loanApprovedAudit (event : ContractEvent) : Except DbError AuditRow := do
  let actor ← varchar 255 (event.adminAddress.getD "SYSTEM")
  let action ← varchar 255 "loan_approved"
  let target ← varchar 255 ("loan:" ++ loanIdText event.loanId)
  pure {
    actor, action, target := some target
    payload := .loanApproved event.eventId event.loanId event.address event.txHash
    ipAddress := none, status := 200 }

def auditRows (event : ContractEvent) : Except DbError (List AuditRow) :=
  if event.eventType ∈ adminConfigEventTypes then do
    let row ← adminConfigAudit event
    pure [row]
  else if event.eventType = .LoanApprv then do
    let row ← loanApprovedAudit event
    pure [row]
  else pure []

structure QuarantineRow where
  eventId : VarChar 255
  ledger : Int
  txHash : VarChar 255
  contractId : VarChar 255
  errorMessage : String

inductive CheckpointStatus
  | verified
  | suspect
  deriving DecidableEq

structure Checkpoint where
  rangeStart : Nat
  rangeEnd : Nat
  status : CheckpointStatus
  rangeDigest : Option String
  range_check : rangeStart ≤ rangeEnd

structure IndexerState where
  lastLedger : Nat
  lastFinalizedLedger : Nat

/-- The tables that the indexer writes. Of `ledger_checkpoints` and `indexer_state` these are the
rows of the indexer's own contract: every statement selects on it. -/
structure Database where
  contractEvents : Table Conflicts
  scores : ScoreTable
  auditLogs : List AuditRow
  quarantineEvents : Table fun row row' : QuarantineRow => row.eventId = row'.eventId
  checkpoints : List Checkpoint
  indexerState : Option IndexerState

structure ScoreConfig where
  repaymentDelta : Int
  defaultPenalty : Int

def scoreDelta (config : ScoreConfig) : EventType → Option Int
  | .LoanRepaid => some config.repaymentDelta
  | .LoanDefaulted => some (-config.defaultPenalty)
  | .CollateralLiquidated => some (-config.defaultPenalty)
  | _ => none

/-- `map.set(address, (map.get(address) ?? 0) + delta)`, unless the address or delta is missing. -/
def addDelta (updates : ScoreUpdates) (address : Option String) (delta : Option Int) :
    ScoreUpdates :=
  match address,delta with
  | some user,some delta =>
    if user = "" then updates
    else updates.insert user ((updates.lookup user).getD 0 + delta)
  | _,_ => updates

section
variable {ScVal : Type} (rt : Runtime ScVal) (pg : Postgres) (config : ScoreConfig)
variable (events : List (SorobanRawEvent ScVal))

def parsedEvents : List ContractEvent :=
  events.filterMap fun event =>
    match parseEvent rt event with
    | .ok parsed => parsed
    | .error _ => none

def quarantineRow (event : SorobanRawEvent ScVal) (errorMessage : String) :
    Except DbError QuarantineRow := do
  let eventId ← varchar 255 event.id
  let ledger ← orFail (int4.check event.ledger) .integerOutOfRange
  let txHash ← varchar 255 event.txHash
  let contractId ← varchar 255 event.contractId
  pure { eventId, ledger, txHash, contractId, errorMessage }

def quarantineEvent (event : SorobanRawEvent ScVal) (errorMessage : String) (db : Database) :
    Database :=
  match quarantineRow event errorMessage with
  | .ok row => { db with quarantineEvents := db.quarantineEvents.insert row }
  | .error _ => db

def quarantineEvents (db : Database) : Database :=
  events.foldl (fun db event =>
    match parseEvent rt event with
    | .ok _ => db
    | .error message => quarantineEvent event message db) db

structure Pass where
  db : Database
  insertedEvents : List ContractEvent
  scoreUpdates : ScoreUpdates

def storeEvent (pass : Pass) (event : ContractEvent) : Except DbError Pass := do
  let row ← eventRow pg event
  if pass.db.contractEvents.Admits row then do
    let audits ← auditRows event
    pure {
      db := { pass.db with
        contractEvents := pass.db.contractEvents.insert row
        auditLogs := pass.db.auditLogs ++ audits }
      insertedEvents := pass.insertedEvents ++ [event]
      scoreUpdates := addDelta pass.scoreUpdates event.address (scoreDelta config event.eventType) }
  else pure pass

/-- One attempt at the transaction of `storeEvents`. An error rolls the tables back, but not what
the loop has collected outside of them. -/
def storeAttempt (insertedEvents : List ContractEvent) (scoreUpdates : ScoreUpdates)
    (events : List ContractEvent) (db : Database) :
    Except DbError (List ContractEvent × Database) := do
  let pass ← events.foldlM (storeEvent pg config) { db, insertedEvents, scoreUpdates }
  let scores ← updateUserScoresBulk pass.scoreUpdates pass.db.scores
  pure (pass.insertedEvents,{ pass.db with scores })

def storeTransaction :
    List ContractEvent → Database → Except DbError (List ContractEvent × Database) :=
  storeAttempt pg config [] ∅

def storeEvents (db : Database) : Except DbError Nat × Database :=
  let db := quarantineEvents rt events db
  let parsed := parsedEvents rt events
  if parsed = [] then (.ok 0,db)
  else
    match storeTransaction pg config parsed db with
    | .ok (insertedEvents,db') => (.ok insertedEvents.length,db')
    | .error e => (.error e,db)

/-- An attempt that was aborted after some rounds of the loop, perhaps midway in the next one, where
the audit row of an event is written. -/
structure Abort where
  passed : Nat
  midway : Bool

def abortAttempt (events : List ContractEvent) (db : Database)
    (collected : List ContractEvent × ScoreUpdates) (abort : Abort) :
    Except DbError (List ContractEvent × ScoreUpdates) := do
  let pass ← (events.take abort.passed).foldlM (storeEvent pg config)
    { db, insertedEvents := collected.1, scoreUpdates := collected.2 }
  match (events.drop abort.passed).head? with
  | none => pure (pass.insertedEvents,pass.scoreUpdates)
  | some event => do
    let row ← eventRow pg event
    -- the event is pushed before its audit row is written, its delta is added after it
    if abort.midway ∧ pass.db.contractEvents.Admits row ∧ auditRows event ≠ .ok [] then
      pure (pass.insertedEvents ++ [event],pass.scoreUpdates)
    else pure (pass.insertedEvents,pass.scoreUpdates)

/-- `withTransaction` around the transaction of `storeEvents`: up to three attempts are repeated. -/
def storeWithRetries (aborted : List Abort) (events : List ContractEvent) (db : Database) :
    Except DbError (List ContractEvent × Database) := do
  let (insertedEvents,scoreUpdates) ← aborted.foldlM (abortAttempt pg config events db) ([],∅)
  ensure (aborted.length ≤ 3) .transient
  storeAttempt pg config insertedEvents scoreUpdates events db

def storeEventsRetried (aborted : List Abort) (events : List (SorobanRawEvent ScVal))
    (db : Database) : Except DbError Nat × Database :=
  let db := quarantineEvents rt events db
  let parsed := parsedEvents rt events
  if parsed = [] then (.ok 0,db)
  else
    match storeWithRetries pg config aborted parsed db with
    | .ok (insertedEvents,db') => (.ok insertedEvents.length,db')
    | .error e => (.error e,db)

/-- The loop after the commit: the events that it dispatches and broadcasts, up to one whose pause
cannot be stored. -/
def announce : List ContractEvent → List ContractEvent × Except DbError Unit
  | [] => ([],.ok ())
  | event :: events =>
    let refused := (PauseGuard.pauseOf event.eventType event.contractId).any fun pause =>
      (PauseGuard.upsertedRow PauseGuard.contractsColumn pause).isNone
    if refused then ([event],.error .invalidValue)
    else
      let (announced,result) := announce events
      (event :: announced,result)

def storeAll (calls : List (List (SorobanRawEvent ScVal))) (db : Database) : Database :=
  calls.foldl (fun db events => (storeEvents rt pg config events db).2) db

end

section

lemma varchar_val {n s v} (h : varchar n s = .ok v) (hf : FitsColumn n s) : v.val = s := by
  rw [varchar_of_fits hf] at h
  cases h
  rfl

variable {pg : Postgres} {event : ContractEvent} {row : EventRow}

lemma eventRow_eq_ok (h : eventRow pg event = .ok row) :
    varchar 255 event.eventId = .ok row.eventId ∧ row.eventType = event.eventType ∧
    nullable (varchar 255) event.address = .ok row.address ∧ row.ledger = event.ledger ∧
    varchar 255 event.contractId = .ok row.contractId := by
  simp only [eventRow,bind_eq_ok,pure_eq_ok] at h
  obtain ⟨_,he,_,-,_,ha,_,-,-,-,_,-,h⟩ := h
  obtain ⟨_,-,_,hc,_,-,_,-,rfl⟩ := h
  exact ⟨he,rfl,ha,rfl,hc⟩

structure Entry (pg : Postgres) where
  event : ContractEvent
  row : EventRow
  stored : eventRow pg event = .ok row

lemma exists_entries {events} (h : ∀ event ∈ events, ∃ row, eventRow pg event = .ok row) :
    ∃ ents : List (Entry pg), ents.map Entry.event = events := by
  induction events with
  | nil => exact ⟨[],rfl⟩
  | cons event events ih =>
    obtain ⟨row,hr⟩ := h event (mem_cons_self ..)
    obtain ⟨ents,hn⟩ := ih fun e he => h e (mem_cons_of_mem event he)
    exact ⟨⟨event,row,hr⟩ :: ents,by rw [map_cons,hn]⟩

end

section
variable {α : Type} (address : α → Option String) (delta : α → Option Int)

def collectDeltas (updates : ScoreUpdates) (items : List α) : ScoreUpdates :=
  items.foldl (fun updates item => addDelta updates (address item) (delta item)) updates

def deltaFor (user : String) (item : α) : Option Int :=
  if address item = some user ∧ user ≠ "" then delta item else none

def deltasFor (items : List α) (user : String) : List Int :=
  items.filterMap (deltaFor address delta user)

variable {address delta}

lemma lookup_addDelta (updates) (item : α) (u) :
    (addDelta updates (address item) (delta item)).lookup u =
      match deltaFor address delta u item with
      | none => updates.lookup u
      | some d => some ((updates.lookup u).getD 0 + d) := by
  cases ha : address item with
  | none => simp [addDelta,deltaFor,ha]
  | some name =>
    cases hd : delta item with
    | none => simp [addDelta,deltaFor,hd]
    | some =>
      simp only [addDelta,deltaFor,ha,hd,Option.some.injEq]
      obtain rfl | hu := eq_or_ne name u
      · by_cases he : name = ""
        · simp [he]
        · simp [he,AList.lookup_insert]
      · have ho : ¬ (name = u ∧ u ≠ "") := fun h => hu h.1
        simp only [if_neg ho]
        by_cases he : name = ""
        · rw [if_pos he]
        · rw [if_neg he]
          exact AList.lookup_insert_ne (Ne.symm hu)

lemma lookup_collectDeltas (upds its u) : (collectDeltas address delta upds its).lookup u =
    if deltasFor address delta its u = [] then upds.lookup u
    else some ((upds.lookup u).getD 0 + (deltasFor address delta its u).sum) := by
  induction its generalizing upds with
  | nil => rfl
  | cons item its ih =>
    rw [collectDeltas,foldl_cons]
    refine (ih _).trans ?_
    rw [lookup_addDelta,deltasFor,deltasFor,filterMap_cons]
    cases deltaFor address delta u item with
    | none => rfl
    | some =>
      rw [if_neg (cons_ne_nil _ _),sum_cons]
      split
      · next hn => rw [hn,sum_nil,add_zero]
      · rw [Option.getD_some,add_assoc]

end

section
variable {pg : Postgres} {config : ScoreConfig}

def insertedOf (db : Database) (entries : List (Entry pg)) : List ContractEvent :=
  (Table.admitted Entry.row db.contractEvents entries).map Entry.event

def eventUpdates (config : ScoreConfig) (events : List ContractEvent) : ScoreUpdates :=
  collectDeltas ContractEvent.address (fun event => scoreDelta config event.eventType) ∅ events

lemma insertedOf_cons (db : Database) (ent : Entry pg) (ents : List (Entry pg)) :
    insertedOf db (ent :: ents) = if db.contractEvents.Admits ent.row then ent.event ::
    insertedOf { db with contractEvents := db.contractEvents.insert ent.row } ents
      else insertedOf db ents := by
  rw [insertedOf,Table.admitted]
  split
  · rfl
  · rfl

def Pass.insert (config : ScoreConfig) (pass : Pass) (entry : Entry pg) (audits : List AuditRow) :
    Pass where
  db := { pass.db with
    contractEvents := pass.db.contractEvents.insert entry.row
    auditLogs := pass.db.auditLogs ++ audits }
  insertedEvents := pass.insertedEvents ++ [entry.event]
  scoreUpdates :=
    addDelta pass.scoreUpdates entry.event.address (scoreDelta config entry.event.eventType)

variable {ents : List (Entry pg)} {pass : Pass} {db : Database} {events : List ContractEvent}

lemma storeEvent_of_admits {ent : Entry pg} (h : pass.db.contractEvents.Admits ent.row) :
    storeEvent pg config pass ent.event =
    auditRows ent.event >>= fun auds => pure (pass.insert config ent auds) := by
  rw [storeEvent,ent.stored]
  exact if_pos h

lemma storeEvent_of_not_admits {ent : Entry pg} (h : ¬ pass.db.contractEvents.Admits ent.row)
    : storeEvent pg config pass ent.event = .ok pass := by
  rw [storeEvent,ent.stored]
  exact if_neg h

lemma foldlM_storeEvent_eq_ok {pass'}
    (h : (ents.map Entry.event).foldlM (storeEvent pg config) pass = .ok pass') :
    (∀ event ∈ insertedOf pass.db ents, ∃ auds, auditRows event = .ok auds) ∧
    ∃ auditLogs, pass' = {
      db := { pass.db with
        contractEvents := pass.db.contractEvents.insertAll (ents.map Entry.row), auditLogs }
      insertedEvents := pass.insertedEvents ++ insertedOf pass.db ents
      scoreUpdates := collectDeltas ContractEvent.address
        (fun event => scoreDelta config event.eventType) pass.scoreUpdates
        (insertedOf pass.db ents) } := by
  induction ents generalizing pass with
  | nil =>
    rw [map_nil,foldlM_nil,pure_eq_ok] at h
    refine ⟨fun event he => absurd he not_mem_nil,pass.db.auditLogs,?_⟩
    rw [← h]
    simp [insertedOf,Table.admitted,collectDeltas]
  | cons ent ents ih =>
    rw [map_cons,foldlM_cons] at h
    by_cases hd : pass.db.contractEvents.Admits ent.row
    · rw [storeEvent_of_admits hd] at h
      simp only [bind_eq_ok,pure_eq_ok] at h
      obtain ⟨_,⟨auds,hu,rfl⟩,hr⟩ := h
      obtain ⟨ha,auditLogs,rfl⟩ := ih hr
      rw [insertedOf_cons,if_pos hd]
      refine ⟨forall_mem_cons.mpr ⟨⟨auds,hu⟩,ha⟩,auditLogs,?_⟩
      simp only [Pass.insert,append_assoc,singleton_append]
      rfl
    · rw [storeEvent_of_not_admits hd] at h
      obtain ⟨ha,auditLogs,rfl⟩ := ih h
      rw [insertedOf_cons,if_neg hd]
      refine ⟨ha,auditLogs,?_⟩
      rw [map_cons,Table.insertAll_cons,Table.insert_of_not_admits hd]

lemma foldlM_storeEvent_returns (config : ScoreConfig) (pass : Pass)
    (h : ∀ event ∈ insertedOf pass.db ents, ∃ auds, auditRows event = .ok auds) :
    ∃ pass', (ents.map Entry.event).foldlM (storeEvent pg config) pass = .ok pass' := by
  induction ents generalizing pass with
  | nil => exact ⟨pass,rfl⟩
  | cons ent ents ih =>
    rw [insertedOf_cons] at h
    rw [map_cons,foldlM_cons]
    by_cases ha : pass.db.contractEvents.Admits ent.row
    · rw [if_pos ha,forall_mem_cons] at h
      obtain ⟨⟨auds,hu⟩,hr⟩ := h
      rw [storeEvent_of_admits ha,hu]
      exact ih _ hr
    · rw [if_neg ha] at h
      rw [storeEvent_of_not_admits ha]
      exact ih _ h

lemma foldlM_storeEvent_rows {pass'} (h : events.foldlM (storeEvent pg config) pass = .ok pass') :
    ∀ event ∈ events, ∃ row, eventRow pg event = .ok row := by
  induction events generalizing pass with
  | nil => exact fun event he => absurd he not_mem_nil
  | cons event events ih =>
    rw [foldlM_cons,bind_eq_ok] at h
    obtain ⟨_,hn,hre⟩ := h
    rw [storeEvent,bind_eq_ok] at hn
    obtain ⟨row,hr,-⟩ := hn
    rw [forall_mem_cons]
    exact ⟨⟨row,hr⟩,ih hre⟩

lemma storeWithRetries_eq_ok {aborted db' ins}
    (h : storeWithRetries pg config aborted events db = .ok (ins,db')) :
    ∃ ents : List (Entry pg), ents.map Entry.event = events ∧
    db'.contractEvents = db.contractEvents.insertAll (ents.map Entry.row) ∧
    db'.checkpoints = db.checkpoints ∧ db'.indexerState = db.indexerState := by
  simp only [storeWithRetries,bind_eq_ok] at h
  obtain ⟨⟨_,_⟩,-,-,-,h⟩ := h
  simp only [storeAttempt,bind_eq_ok,pure_eq_ok] at h
  obtain ⟨_,hp,_,-,h⟩ := h
  cases h
  obtain ⟨ents,rfl⟩ := exists_entries (foldlM_storeEvent_rows hp)
  obtain ⟨-,_,rfl⟩ := foldlM_storeEvent_eq_ok hp
  exact ⟨ents,rfl,rfl,rfl,rfl⟩

structure Commits (config : ScoreConfig) (db : Database) (entries : List (Entry pg))
    (db' : Database) : Prop where
  contractEvents : db'.contractEvents = db.contractEvents.insertAll (entries.map Entry.row)
  scores : updateUserScoresBulk (eventUpdates config (insertedOf db entries)) db.scores =
    .ok db'.scores
  checkpoints : db'.checkpoints = db.checkpoints
  indexerState : db'.indexerState = db.indexerState

lemma storeTransaction_eq_ok {db' ins}
    (h : storeTransaction pg config (ents.map Entry.event) db = .ok (ins,db')) :
    (∀ event ∈ insertedOf db ents, ∃ auds, auditRows event = .ok auds) ∧
    Commits config db ents db' := by
  rw [storeTransaction,storeAttempt,bind_eq_ok] at h
  obtain ⟨_,hp,h⟩ := h
  rw [bind_eq_ok] at h
  obtain ⟨_,hs,h⟩ := h
  obtain ⟨ha,_,rfl⟩ := foldlM_storeEvent_eq_ok hp
  cases h
  exact ⟨ha,rfl,hs,rfl,rfl⟩

lemma storeTransaction_returns (db)
    (ha : ∀ event ∈ insertedOf db ents, ∃ auds, auditRows event = .ok auds)
    (hs : ∃ scs, updateUserScoresBulk (eventUpdates config (insertedOf db ents))
    db.scores = .ok scs) :
    ∃ ins db', storeTransaction pg config (ents.map Entry.event) db = .ok (ins,db') := by
  obtain ⟨_,hp⟩ := foldlM_storeEvent_returns config
    { db, insertedEvents := [], scoreUpdates := ∅ } ha
  obtain ⟨-,_,rfl⟩ := foldlM_storeEvent_eq_ok hp
  obtain ⟨scs,hs⟩ := hs
  rw [storeTransaction,storeAttempt,hp]
  show ∃ ins db', (updateUserScoresBulk (eventUpdates config (insertedOf db ents)) db.scores
    >>= _) = _
  rw [hs]
  exact ⟨_,_,rfl⟩

variable {ScVal : Type} {rt : Runtime ScVal}

lemma quarantineEvents_eq (rt : Runtime ScVal) (events : List (SorobanRawEvent ScVal))
    (db : Database) : ∃ quar,
    quarantineEvents rt events db = { db with quarantineEvents := quar } := by
  induction events generalizing db with
  | nil => exact ⟨db.quarantineEvents,rfl⟩
  | cons event events ih =>
    rw [quarantineEvents,foldl_cons]
    cases parseEvent rt event with
    | ok => exact ih db
    | error msg =>
      simp only [quarantineEvent]
      cases quarantineRow event msg with
      | ok row =>
        obtain ⟨quar,h⟩ := ih { db with
          quarantineEvents := db.quarantineEvents.insert row }
        exact ⟨quar,h⟩
      | error => exact ih db

lemma storeEvents_eq (events db) : storeEvents rt pg config events db =
      match storeTransaction pg config (parsedEvents rt events) (quarantineEvents rt events db) with
      | .ok (insertedEvents,db') => (.ok insertedEvents.length,db')
      | .error e => (.error e,quarantineEvents rt events db) := by
  rw [storeEvents]
  by_cases hn : parsedEvents rt events = []
  · simp only [hn]
    rfl
  · simp only [if_neg hn]

variable (pg config rt) in
lemma storeEvents_cases (events : List (SorobanRawEvent ScVal)) (db : Database) :
    (∃ (cnt : Nat) (ents : List (Entry pg)), (storeEvents rt pg config events db).1 = .ok cnt ∧
    ents.map Entry.event = parsedEvents rt events ∧
    (∀ event ∈ insertedOf db ents, ∃ auds, auditRows event = .ok auds) ∧
    Commits config db ents (storeEvents rt pg config events db).2) ∨
    ∃ e quar, (storeEvents rt pg config events db).1 = .error e ∧
    (storeEvents rt pg config events db).2 = { db with quarantineEvents := quar } := by
  obtain ⟨quar,hq⟩ := quarantineEvents_eq rt events db
  rw [storeEvents_eq,hq]
  cases hs : storeTransaction pg config (parsedEvents rt events)
      { db with quarantineEvents := quar } with
  | error e => exact .inr ⟨e,quar,rfl,rfl⟩
  | ok res =>
    obtain ⟨ins,_⟩ := res
    have hr : ∀ event ∈ parsedEvents rt events, ∃ row, eventRow pg event = .ok row := by
      have hl := hs
      rw [storeTransaction,storeAttempt,bind_eq_ok] at hl
      obtain ⟨_,hp,-⟩ := hl
      exact foldlM_storeEvent_rows hp
    obtain ⟨ents,he⟩ := exists_entries hr
    rw [← he] at hs
    obtain ⟨ha,hc⟩ := storeTransaction_eq_ok hs
    exact .inl ⟨ins.length,ents,rfl,he,ha,hc.contractEvents,hc.scores,hc.checkpoints,hc.indexerState⟩

lemma storeEvents_returns {events} (he : ents.map Entry.event = parsedEvents rt events)
    (ha : ∀ event ∈ insertedOf db ents, ∃ auds, auditRows event = .ok auds)
    (hs : ∃ scs, updateUserScoresBulk (eventUpdates config (insertedOf db ents))
    db.scores = .ok scs) : Commits config db ents (storeEvents rt pg config events db).2 := by
  obtain ⟨quar,hq⟩ := quarantineEvents_eq rt events db
  obtain ⟨_,_,ht⟩ := storeTransaction_returns { db with quarantineEvents := quar } ha hs
  obtain ⟨-,hc⟩ := storeTransaction_eq_ok ht
  rw [storeEvents_eq,hq,← he,ht]
  exact ⟨hc.contractEvents,hc.scores,hc.checkpoints,hc.indexerState⟩

end

section
variable (config : ScoreConfig) (contractIds : List String)

def Orphaned (ledger : Nat) (row : EventRow) : Prop :=
  row.contractId.val ∈ contractIds ∧ ledger ≤ row.ledger

instance (ledger : Nat) : DecidablePred (Orphaned contractIds ledger) :=
  fun _ => inferInstanceAs (Decidable (_ ∧ _))

def scoreRollbacks (rows : List EventRow) : ScoreUpdates :=
  rows.foldl (fun updates row =>
    addDelta updates (row.address.map (·.val)) ((scoreDelta config row.eventType).map (- ·))) ∅

def reversalAudits (ledger : Nat) (db : Database) : List AuditRow :=
  let orphans := db.contractEvents.rows.filter (Orphaned contractIds ledger)
  db.auditLogs.filterMap fun audit =>
    audit.payload.eventId? >>= fun eventId =>
      if eventId ∈ orphans.map (·.eventId.val) then some {
        actor := ⟨"SYSTEM",by decide⟩, action := ⟨"REORG_REVERSAL",by decide⟩
        target := audit.target, payload := .reversal eventId ledger
        ipAddress := some "internal-indexer", status := 200 }
      else none

def IndexerState.lower (state : IndexerState) (ledger : Nat) : IndexerState where
  lastLedger := min state.lastLedger ledger
  lastFinalizedLedger := min state.lastFinalizedLedger ledger

def auditColumns : List String :=
  ["id","actor","action","target","payload","ip_address","created_at","status"]

/-- The `INSERT` of the reversals: `$2` comes first as an argument of `jsonb_build_object`, which
takes any type, and then where it is compared with a ledger. -/
def reversalStatement : Sql.Statement where
  tables := [auditColumns]
  columns := ["target","payload"]
  params := [(2,.any),(1,.typed),(2,.typed)]

def rollbackFromLedger (ledger : Nat) (db : Database) : Except DbError Database := do
  let orphanedEvents := db.contractEvents.rows.filter (Orphaned contractIds ledger)
  let auditLogs ← reversalStatement.answer (.error .invalidValue)
    (.ok (db.auditLogs ++ reversalAudits contractIds ledger db))
  let scores ← updateUserScoresBulk (scoreRollbacks config orphanedEvents) db.scores
  pure { db with
    contractEvents := db.contractEvents.delete fun row => ¬ Orphaned contractIds ledger row
    scores
    auditLogs
    checkpoints := db.checkpoints.filter fun checkpoint => checkpoint.rangeEnd < ledger
    indexerState := db.indexerState.map (·.lower (ledger - 1)) }

variable {config contractIds}

/-- The transaction of a rollback always fails. -/
lemma rollbackFromLedger_ne_ok {ledger db db'} :
    rollbackFromLedger config contractIds ledger db ≠ .ok db' := by
  rw [rollbackFromLedger,Sql.Statement.answer_refused (by decide)]
  intro h
  cases h

end

def plainPostgres : Postgres where
  numeric text := some text
  timestamp date := date

def defaultScoreConfig : ScoreConfig where
  repaymentDelta := 15
  defaultPenalty := 50

def emptyDatabase (scores : ScoreTable) : Database where
  contractEvents := ⟨[],.nil⟩
  scores
  auditLogs := []
  quarantineEvents := ⟨[],.nil⟩
  checkpoints := []
  indexerState := none

end DukaPay.Backend
