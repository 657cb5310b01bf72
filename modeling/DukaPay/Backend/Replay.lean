import DukaPay.Backend.EventStore

/-! The deltas of a call are summed for each user and go through the upsert once. -/
namespace DukaPay.Backend
open Contractlib List Table Entry
variable (scores : ScoreTable) (deltas : String → List Int)

/-- The scores after deltas that do not saturate. A missing row counts as `500`, and the deltas come
out with the opposite sign. -/
def mirrored : ScoreTable := fun user =>
  if deltas user.val = [] then scores user
  else some ((scores user).getD 500 - (deltas user.val).sum)

def HasRoom : Prop :=
  ∀ user : VarChar 255, deltas user.val ≠ [] →
    (300 ≤ 500 - (deltas user.val).sum ∧ 500 - (deltas user.val).sum ≤ 850) ∧
    300 ≤ (scores user).getD 500 - (deltas user.val).sum ∧
    (scores user).getD 500 - (deltas user.val).sum ≤ 850

@[simp] lemma mirrored_nil : mirrored scores (fun _ => []) = scores := by
  funext user
  exact if_pos rfl

lemma mirrored_append (deltas deltas') : mirrored (mirrored scores deltas) deltas' =
    mirrored scores fun user => deltas user ++ deltas' user := by
  funext user
  simp only [mirrored,append_eq_nil_iff,sum_append]
  by_cases h : deltas user.val = []
  · simp [h]
  by_cases h' : deltas' user.val = []
  · simp [h,h']
  · simp [h,h',sub_sub]

lemma getD_mirrored (u) :
    (mirrored scores deltas u).getD 500 = (scores u).getD 500 - (deltas u.val).sum := by
  rw [mirrored]
  split
  · next h => rw [h,sum_nil,sub_zero]
  · rfl

lemma upsertScore_mirrors {row : Option Int} {delta} (hr : 300 ≤ 500 - delta ∧ 500 - delta ≤ 850)
    (hc : 300 ≤ row.getD 500 - delta ∧ row.getD 500 - delta ≤ 850) :
    upsertScore row delta = .ok (row.getD 500 - delta) := by
  obtain ⟨score,ho⟩ : ∃ score, upsertScore row delta = .ok score := by
    refine upsertScore_returns ?_ ?_ fun s hs => ?_
    · constructor <;> simp only [int4] <;> omega
    · constructor <;> simp only [int4] <;> omega
    · rw [hs,Option.getD_some] at hc
      simp only [int4]
      omega
  rw [ho,upsertScore_eq_ok ho,clampScore_of_mem hr.1 hr.2]
  have hm : row.getD 500 + (500 - delta) - 500 = row.getD 500 - delta := by omega
  rw [hm,clampScore_of_mem hc.1 hc.2]

section
variable {α : Type} {address : α → Option String} {delta : α → Option Int} {items : List α}

def AddressesFit (address : α → Option String) (delta : α → Option Int) (items : List α) : Prop :=
  ∀ item ∈ items, ∀ user, (deltaFor address delta user item).isSome → FitsColumn 255 user

lemma updatesFit_collectDeltas (hf : AddressesFit address delta items) :
    UpdatesFit (collectDeltas address delta ∅ items) := by
  intro user d hl
  rw [lookup_collectDeltas] at hl
  split at hl
  · cases hl
  · next hn =>
    obtain ⟨_,hd'⟩ := exists_mem_of_ne_nil _ hn
    obtain ⟨item,ht,he⟩ := mem_filterMap.mp hd'
    exact hf item ht user (by rw [he]; rfl)

lemma updateUserScoresBulk_mirrors {scores} (hf : AddressesFit address delta items)
    (hr : HasRoom scores (deltasFor address delta items)) :
    updateUserScoresBulk (collectDeltas address delta ∅ items) scores =
    .ok (mirrored scores (deltasFor address delta items)) := by
  have hu := updatesFit_collectDeltas hf
  have hl : ∀ u, (collectDeltas address delta ∅ items).lookup u =
      if deltasFor address delta items u = [] then none
      else some (deltasFor address delta items u).sum := by
    intro u
    rw [lookup_collectDeltas]
    simp
  have hc : ∀ (u : VarChar 255), deltasFor address delta items u.val ≠ [] →
      upsertScore (scores u) (deltasFor address delta items u.val).sum =
        .ok ((scores u).getD 500 - (deltasFor address delta items u.val).sum) := by
    intro u hn
    obtain ⟨hrw,hw⟩ := hr u hn
    exact upsertScore_mirrors hrw hw
  obtain ⟨_,ho⟩ := updateUserScoresBulk_returns scores hu fun u d hd _ => by
      rw [hl] at hd
      split at hd
      · cases hd
      · next hn =>
        cases hd
        exact ⟨_,hc u hn⟩
  rw [ho]
  refine congrArg Except.ok (funext fun u => ?_)
  obtain ⟨hwr,hk⟩ := updateUserScoresBulk_spec hu ho u
  rw [mirrored]
  split
  · next hnl => exact hk (.inl (by rw [hl,if_pos hnl]))
  · next hn =>
    have hm : u.val ≠ "" := by
      intro he
      refine hn (filterMap_eq_nil_iff.mpr fun item _ => ?_)
      exact if_neg fun h => h.2 he
    obtain ⟨_,hs,hw⟩ := hwr _ (by rw [hl,if_neg hn]) hm
    rw [hc u hn] at hs
    cases hs
    exact hw

end

section
variable {pg : Postgres} (config : ScoreConfig)

def eventDeltas (events : List ContractEvent) : String → List Int :=
  deltasFor ContractEvent.address (fun event => scoreDelta config event.eventType) events

def GivesDelta (event : ContractEvent) : Prop :=
  ∃ user, (deltaFor ContractEvent.address (fun event => scoreDelta config event.eventType) user
    event).isSome

/-- **The condition on one call**, at the tables before it: the columns take the values of all of
its events, no aborted attempt has collected a delta, and the deltas of the events that are inserted
do not saturate. -/
structure SteadyEntries (db : Database) (aborted : List Abort) (entries : List (Entry pg)) :
    Prop where
  retries : aborted.length ≤ 3
  aborted : ∀ abort ∈ aborted, ∀ event ∈ insertedOf db (entries.take abort.passed),
    ¬ GivesDelta config event
  audits : ∀ event ∈ insertedOf db entries, ∃ audits, auditRows event = .ok audits
  addresses : ∀ event ∈ insertedOf db entries, ∀ user, event.address = some user →
    FitsColumn 255 user
  room : HasRoom db.scores (eventDeltas config (insertedOf db entries))

def Steady (pg : Postgres) (db : Database) (aborted : List Abort) (events : List ContractEvent) :
    Prop :=
  ∃ entries : List (Entry pg), entries.map Entry.event = events ∧
    SteadyEntries config db aborted entries

variable {config} {db : Database} {ents : List (Entry pg)}
variable {aborted : List Abort} {events : List ContractEvent}

lemma collectDeltas_of_not_givesDelta {updates} (h : ∀ event ∈ events, ¬ GivesDelta config event) :
    collectDeltas ContractEvent.address (fun event => scoreDelta config event.eventType) updates
    events = updates := by
  induction events with
  | nil => rfl
  | cons event events ih =>
    rw [forall_mem_cons] at h
    have hs : addDelta updates event.address (scoreDelta config event.eventType) = updates := by
      cases ha : event.address with
      | none => rfl
      | some user =>
        cases hd : scoreDelta config event.eventType with
        | none => rfl
        | some =>
          by_cases he : user = ""
          · exact if_pos he
          · refine absurd ⟨user,?_⟩ h.1
            simp [deltaFor,ha,hd,he]
    rw [collectDeltas,foldl_cons,hs]
    exact ih h.2

lemma insertedOf_take_subset (db) (ents : List (Entry pg)) (cnt) :
    insertedOf db (ents.take cnt) ⊆ insertedOf db ents := by
  have hs := admitted_append row db.contractEvents (ents.take cnt) (ents.drop cnt)
  rw [take_append_drop] at hs
  rw [insertedOf,insertedOf,hs,map_append]
  exact subset_append_left _ _

lemma abortAttempt_of_steady {abort : Abort} (insertedEvents)
    (ha : ∀ ev ∈ insertedOf db (ents.take abort.passed), ¬ GivesDelta config ev)
    (hd : ∀ ev ∈ insertedOf db ents, ∃ auds, auditRows ev = .ok auds) :
    ∃ insertedEvents', abortAttempt pg config (ents.map event) db (insertedEvents,∅) abort =
    .ok (insertedEvents',∅) := by
  obtain ⟨_,hp⟩ := foldlM_storeEvent_returns config { db, insertedEvents, scoreUpdates := ∅ }
    fun ev he => hd ev (insertedOf_take_subset db ents abort.passed he)
  obtain ⟨-,_,rfl⟩ := foldlM_storeEvent_eq_ok hp
  rw [abortAttempt,← map_take,hp,← map_drop,head?_map]
  simp only [collectDeltas_of_not_givesDelta ha]
  cases (ents.drop abort.passed).head? with
  | none => exact ⟨_,rfl⟩
  | some ent =>
    simp only [Option.map_some,ent.stored]
    show ∃ insertedEvents', (ite _ (Except.ok _) (Except.ok _) : Except DbError _) = _
    split
    · exact ⟨_,rfl⟩
    · exact ⟨_,rfl⟩

lemma foldlM_abortAttempt_of_steady (insertedEvents)
    (ha : ∀ abort ∈ aborted, ∀ ev ∈ insertedOf db (ents.take abort.passed), ¬ GivesDelta config ev)
    (hd : ∀ ev ∈ insertedOf db ents, ∃ auds, auditRows ev = .ok auds) :
    ∃ insertedEvents', aborted.foldlM (abortAttempt pg config (ents.map event) db)
    (insertedEvents,∅) = .ok (insertedEvents',∅) := by
  induction aborted generalizing insertedEvents with
  | nil => exact ⟨insertedEvents,rfl⟩
  | cons abort aborted ih =>
    rw [forall_mem_cons] at ha
    obtain ⟨_,ho⟩ := abortAttempt_of_steady insertedEvents ha.1 hd
    rw [foldlM_cons,ho]
    exact ih _ ha.2

lemma addressesFit_of_steady
    (h : ∀ ev ∈ events, ∀ user, ev.address = some user → FitsColumn 255 user) :
    AddressesFit ContractEvent.address (fun ev => scoreDelta config ev.eventType) events := by
  intro ev he user hs
  rw [deltaFor] at hs
  split at hs
  · next ha => exact h ev he user ha.1
  · cases hs

lemma storeWithRetries_of_steady (h : SteadyEntries config db aborted ents) :
    ∃ ins db', storeWithRetries pg config aborted (ents.map event) db = .ok (ins,db') ∧
    db'.contractEvents = db.contractEvents.insertAll (ents.map row) ∧
    db'.scores = mirrored db.scores (eventDeltas config (insertedOf db ents)) := by
  obtain ⟨insertedEvents,ha⟩ := foldlM_abortAttempt_of_steady [] h.aborted h.audits
  obtain ⟨_,hp⟩ := foldlM_storeEvent_returns config
    { db, insertedEvents, scoreUpdates := ∅ } h.audits
  obtain ⟨-,_,rfl⟩ := foldlM_storeEvent_eq_ok hp
  have hs := updateUserScoresBulk_mirrors (addressesFit_of_steady h.addresses) h.room
  rw [storeWithRetries,ha]
  show ∃ ins db', (ensure (aborted.length ≤ 3) _ >>= _) = _ ∧ _
  rw [ensure,if_pos h.retries]
  show ∃ ins db', storeAttempt pg config insertedEvents ∅ (ents.map event) db = _ ∧ _
  rw [storeAttempt,hp]
  show ∃ ins db', (updateUserScoresBulk (collectDeltas _ _ ∅ (insertedOf db ents)) db.scores
    >>= _) = _ ∧ _
  rw [hs]
  exact ⟨_,_,rfl,rfl,rfl⟩

variable {ScVal : Type} {rt : Runtime ScVal}

lemma SteadyEntries.effect {events} (he : ents.map event = parsedEvents rt events)
    (h : SteadyEntries config db aborted ents) :
    (storeEventsRetried rt pg config aborted events db).2.contractEvents =
    db.contractEvents.insertAll (ents.map row) ∧
    (storeEventsRetried rt pg config aborted events db).2.scores =
    mirrored db.scores (eventDeltas config (insertedOf db ents)) := by
  obtain ⟨quar,hq⟩ := quarantineEvents_eq rt events db
  rw [storeEventsRetried,hq]
  by_cases hn : parsedEvents rt events = []
  · simp only [hn,if_true]
    rw [hn,map_eq_nil_iff] at he
    subst he
    exact ⟨rfl,(mirrored_nil _).symm⟩
  simp only [if_neg hn]
  have hu : SteadyEntries config { db with quarantineEvents := quar } aborted ents :=
    ⟨h.retries,h.aborted,h.audits,h.addresses,h.room⟩
  obtain ⟨_,_,ho,hr,hs⟩ := storeWithRetries_of_steady hu
  rw [← he,ho]
  exact ⟨hr,hs⟩

end

section
variable {ScVal : Type} (rt : Runtime ScVal) (pg : Postgres) (config : ScoreConfig)

structure StoreCall (ScVal : Type) where
  events : List (SorobanRawEvent ScVal)
  aborted : List Abort

def StoreCall.run (call : StoreCall ScVal) (db : Database) : Database :=
  (storeEventsRetried rt pg config call.aborted call.events db).2

def runCalls (calls : List (StoreCall ScVal)) (db : Database) : Database :=
  calls.foldl (fun db call => call.run rt pg config db) db

def SteadyRun : Database → List (StoreCall ScVal) → Prop
  | _,[] => True
  | db,call :: calls =>
    Steady config pg db call.aborted (parsedEvents rt call.events) ∧
      SteadyRun (call.run rt pg config db) calls

/-- The calls hand over pieces of a log, with overlaps and repetitions but no gap, from `reach` on. -/
def Covers (log : List (SorobanRawEvent ScVal)) : Nat → List (StoreCall ScVal) → Prop
  | reach,[] => log.length ≤ reach
  | reach,call :: calls =>
    ∃ lo hi, lo ≤ reach ∧ call.events = (log.take hi).drop lo ∧ Covers log (max reach hi) calls

variable {rt pg config}

lemma parsedEvents_append (events events') :
    parsedEvents rt (events ++ events') = parsedEvents rt events ++ parsedEvents rt events' :=
  filterMap_append

lemma parsedEvents_subset {events events'}
    (h : events ⊆ events') : parsedEvents rt events ⊆ parsedEvents rt events' := by
  intro prs hp
  obtain ⟨raw,hr,he⟩ := mem_filterMap.mp hp
  exact mem_filterMap.mpr ⟨raw,h hr,he⟩

lemma eventDeltas_append (events events') : eventDeltas config (events ++ events') =
    fun user => eventDeltas config events user ++ eventDeltas config events' user :=
  funext fun _ => filterMap_append

variable {reach : Nat} {db : Database} {ents : List (Entry pg)}
  {log : List (SorobanRawEvent ScVal)} {calls : List (StoreCall ScVal)}

lemma piece_eq (log : List (SorobanRawEvent ScVal)) {lo hi} (hl : lo ≤ reach) :
    (log.take hi).drop lo = ((log.take hi).take reach).drop lo ++ (log.take hi).drop reach := by
  have hs := congrArg (List.drop lo) (take_append_drop reach (log.take hi))
  rw [drop_append] at hs
  rw [← hs,length_take]
  congr 1
  rcases le_total reach (log.take hi).length with h | h
  · rw [min_eq_left h,Nat.sub_eq_zero_of_le hl,drop_zero]
  · rw [drop_eq_nil_of_le h,drop_nil]

lemma take_max_eq (log : List (SorobanRawEvent ScVal)) (reach hi : Nat) :
    log.take (max reach hi) = log.take reach ++ (log.take hi).drop reach := by
  rcases le_total reach hi with h | h
  · rw [max_eq_right h]
    nth_rewrite 1 [← take_append_drop reach (log.take hi)]
    rw [take_take,min_eq_left h]
  · have hl : (log.take hi).length ≤ reach := (length_take_le hi log).trans h
    rw [max_eq_left h,drop_eq_nil_of_le hl,append_nil]

def Stored (rt : Runtime ScVal) (pg : Postgres) (config : ScoreConfig) (db0 : Database)
    (log : List (SorobanRawEvent ScVal)) (reach : Nat) (db : Database) : Prop :=
  ∃ entries : List (Entry pg), entries.map Entry.event = parsedEvents rt (log.take reach) ∧
    db.contractEvents = db0.contractEvents.insertAll (entries.map Entry.row) ∧
    db.scores = mirrored db0.scores (eventDeltas config (insertedOf db0 entries))

lemma not_admits_of_stored {t : Table Conflicts} {ent : Entry pg}
    (hm : ent.event ∈ ents.map event) :
    ¬ (t.insertAll (ents.map row)).Admits ent.row := by
  obtain ⟨other,ho,he⟩ := mem_map.mp hm
  have hr : other.row = ent.row := by
    have hs := other.stored
    rw [he,ent.stored] at hs
    exact (Except.ok.inj hs).symm
  rw [← hr]
  exact not_admits_insertAll conflicts_refl t ho

lemma Stored.step {db0 lo hi} {call : StoreCall ScVal} (h : Stored rt pg config db0 log reach db)
    (hl : lo ≤ reach) (hc : call.events = (log.take hi).drop lo)
    (ht : Steady config pg db call.aborted (parsedEvents rt call.events)) :
    Stored rt pg config db0 log (max reach hi) (call.run rt pg config db) := by
  obtain ⟨ents,he,hrs,hsc⟩ := h
  obtain ⟨_,hp,ht⟩ := ht
  obtain ⟨hr',hs'⟩ := ht.effect hp
  rw [hc,piece_eq log hl,parsedEvents_append] at hp
  obtain ⟨old,new,rfl,ho,hw⟩ := map_eq_append_iff.mp hp
  -- what is repeated conflicts, so only the new part is inserted
  have hr : admitted row db.contractEvents old = [] := by
    refine admitted_eq_nil fun ent hn => ?_
    rw [hrs]
    refine not_admits_of_stored ?_
    rw [he]
    refine parsedEvents_subset ?_ (ho ▸ mem_map_of_mem hn)
    refine List.Subset.trans (drop_subset _ _) ?_
    rw [take_take,min_comm,← take_take]
    exact take_subset _ _
  have hs : db.contractEvents.insertAll (old.map row) = db.contractEvents := by
    refine ext ?_
    rw [rows_insertAll,hr,map_nil,append_nil]
  have hin : insertedOf db (old ++ new) = insertedOf db new := by
    rw [insertedOf,admitted_append,hr,hs]
    rfl
  have hh : insertedOf db0 (ents ++ new) = insertedOf db0 ents ++ insertedOf db new := by
    rw [insertedOf,admitted_append,map_append,← hrs]
    rfl
  refine ⟨ents ++ new,?_,?_,?_⟩
  · rw [map_append,he,hw,take_max_eq,parsedEvents_append]
  · show (storeEventsRetried rt pg config call.aborted call.events db).2.contractEvents = _
    rw [hr',map_append,insertAll_append,hs,hrs,map_append,insertAll_append]
  · show (storeEventsRetried rt pg config call.aborted call.events db).2.scores = _
    rw [hs',hin,hsc,mirrored_append,hh,eventDeltas_append]

lemma Stored.run {db0} (h : Stored rt pg config db0 log reach db)
    (hc : Covers log reach calls) (hs : SteadyRun rt pg config db calls) :
    Stored rt pg config db0 log log.length (runCalls rt pg config calls db) := by
  induction calls generalizing db reach with
  | nil =>
    obtain ⟨ents,he,hr⟩ := h
    have hl : log.length ≤ reach := hc
    rw [take_of_length_le hl] at he
    exact ⟨ents,by rw [take_length]; exact he,hr⟩
  | cons call calls ih =>
    obtain ⟨_,_,ho,hv,hc⟩ := hc
    exact ih (h.step ho hv hs.1) hc hs.2

lemma stored_zero (db log) : Stored rt pg config db log 0 db := ⟨[],rfl,rfl,(mirrored_nil _).symm⟩

lemma entries_unique {entries' : List (Entry pg)}
    (h : ents.map event = entries'.map event) : ents = entries' := by
  refine map_injective_iff.mpr (fun entry entry' he => ?_) h
  obtain ⟨event,row,hr⟩ := entry
  obtain ⟨event',row',hr'⟩ := entry'
  obtain rfl : event = event' := he
  obtain rfl : row = row' := Except.ok.inj (hr.symm.trans hr')
  rfl

/-- **Scores do not depend on batching or replay** if all calls meet the condition: after any two
ways of handing over a log the tables of scores are the same, and every event that was inserted has
moved its user's score once. -/
theorem scores_independent_of_batching (log : List (SorobanRawEvent ScVal)) (db : Database)
    (calls calls' : List (StoreCall ScVal))
    (hcovers : Covers log 0 calls) (hcovers' : Covers log 0 calls')
    (hsteady : SteadyRun rt pg config db calls) (hsteady' : SteadyRun rt pg config db calls') :
    (runCalls rt pg config calls db).scores = (runCalls rt pg config calls' db).scores ∧
    ∃ entries : List (Entry pg), entries.map Entry.event = parsedEvents rt log ∧
      (runCalls rt pg config calls db).scores =
      mirrored db.scores (eventDeltas config (insertedOf db entries)) := by
  obtain ⟨entries,he,-,hs⟩ := (stored_zero db log).run hcovers hsteady
  obtain ⟨_,hentries',-,hscores'⟩ := (stored_zero db log).run hcovers' hsteady'
  obtain rfl := entries_unique (he.trans hentries'.symm)
  rw [take_length] at he
  exact ⟨hs.trans hscores'.symm,entries,he,hs⟩

end

section
variable {ScVal : Type} {rt : Runtime ScVal} {pg : Postgres} {config : ScoreConfig}

/-- A rollback that returns with the earlier events and scores; a missing row counts as `500`. -/
def Restores (config : ScoreConfig) (contractIds : List String) (ledger : Nat)
    (earlier later : Database) : Prop :=
  ∃ db', rollbackFromLedger config contractIds ledger later = .ok db' ∧
    db'.contractEvents = earlier.contractEvents ∧
    ∀ user, (db'.scores user).getD 500 = (earlier.scores user).getD 500

/-- The tables after a rollback: those before it if its transaction fails. -/
def afterRollback (config : ScoreConfig) (contractIds : List String) (ledger : Nat)
    (db : Database) : Database :=
  (rollbackFromLedger config contractIds ledger db).toOption.getD db

/-- **No rollback undoes indexing**: whatever was stored before and since, it fails and leaves the
tables as they are. -/
theorem rollback_never_restores (contractIds : List String) (ledger : Nat) (db : Database)
    (calls : List (StoreCall ScVal)) :
    ¬ Restores config contractIds ledger db (runCalls rt pg config calls db) ∧
      afterRollback config contractIds ledger (runCalls rt pg config calls db) =
        runCalls rt pg config calls db := by
  refine ⟨fun ⟨_,ho,_⟩ => rollbackFromLedger_ne_ok ho,?_⟩
  rw [afterRollback]
  cases ho : rollbackFromLedger config contractIds ledger (runCalls rt pg config calls db) with
  | error => rfl
  | ok => exact absurd ho rollbackFromLedger_ne_ok

end

def zeroRepaid (id : String) (ledger : Nat) : ContractEvent where
  eventId := id
  eventType := .LoanRepaid
  loanId := some (.integer 1)
  address := some zeroAccount
  amount := some "100"
  ledger
  ledgerClosedAt := some 1767225600000
  txHash := "tx"
  contractId := zeroContract
  topics := ["AAAADwAAAApMb2FuUmVwYWlkAAA=",
    "AAAAEgAAAAAAAAAAAAAAAAAAAAAAAAAAAAAAAAAAAAAAAAAAAAAAAAAAAAA=","AAAAAwAAAAE="]
  value := "AAAACgAAAAAAAAAAAAAAAAAAAGQ="
  interestRateBps := none
  termLedgers := none
  adminAddress := none
  borrowerRefund := none

def zeroRow (id : VarChar 255) (ledger : Nat) : EventRow where
  eventId := id
  eventType := .LoanRepaid
  loanId := some 1
  address := some ⟨zeroAccount,by decide⟩
  amount := some "100"
  ledger
  ledgerClosedAt := 1767225600000
  txHash := ⟨"tx",by decide⟩
  contractId := ⟨zeroContract,by decide⟩
  topics := (zeroRepaid id ledger).topics
  value := (zeroRepaid id ledger).value
  interestRateBps := none
  termLedgers := none

def firstEntry : Entry plainPostgres where
  event := zeroRepaid "a" 10
  row := zeroRow ⟨"a",by decide⟩ 10
  stored := by rfl

def secondEntry : Entry plainPostgres where
  event := zeroRepaid "b" 11
  row := zeroRow ⟨"b",by decide⟩ 11
  stored := by rfl

def repaidLog : List (SorobanRawEvent PlainVal) := [repaidEvent "a" 10 1,repaidEvent "b" 11 1]

lemma parsed_first : [firstEntry].map event = parsedEvents plainRuntime [repaidEvent "a" 10 1] := by
  rfl

lemma parsed_second :
    [secondEntry].map event = parsedEvents plainRuntime [repaidEvent "b" 11 1] := by
  rfl

lemma parsed_repaidLog :
    parsedEvents plainRuntime repaidLog = [firstEntry,secondEntry].map event := by
  have hl : repaidLog = [repaidEvent "a" 10 1] ++ [repaidEvent "b" 11 1] := rfl
  rw [hl,parsedEvents_append,← parsed_first,← parsed_second]
  rfl

lemma eventDeltas_repaid (events)
    (h : ∀ ev ∈ events, ev.address = some zeroAccount ∧ ev.eventType = .LoanRepaid) (u) :
    eventDeltas defaultScoreConfig events u =
    if u = zeroAccount then List.replicate events.length 15 else [] := by
  induction events with
  | nil => simp [eventDeltas,deltasFor]
  | cons ev events ih =>
    rw [forall_mem_cons] at h
    have ht := ih h.2
    rw [eventDeltas,deltasFor] at ht ⊢
    obtain rfl | hu := eq_or_ne u zeroAccount
    · have hd : deltaFor ContractEvent.address
          (fun ev => scoreDelta defaultScoreConfig ev.eventType) zeroAccount ev = some 15 := by
        rw [deltaFor,if_pos ⟨h.1.1,by decide⟩,h.1.2]
        rfl
      rw [filterMap_cons_some hd,ht,if_pos rfl,if_pos rfl,length_cons,replicate_succ]
    have hd : deltaFor ContractEvent.address
        (fun ev => scoreDelta defaultScoreConfig ev.eventType) u ev = none := by
      rw [deltaFor,h.1.1]
      exact if_neg fun he => hu (Option.some.inj he.1).symm
    rw [filterMap_cons_none hd,ht,if_neg hu,if_neg hu]

lemma steady_repaid {db : Database} {ents}
    (he : ∀ ent ∈ ents, ent = firstEntry ∨ ent = secondEntry) (hl : ents.length ≤ 2)
    (hsc : ∀ user, user.val = zeroAccount →
    330 ≤ (db.scores user).getD 500 ∧ (db.scores user).getD 500 ≤ 850) :
    SteadyEntries defaultScoreConfig db [] ents := by
  have hi : ∀ event ∈ insertedOf db ents, event = firstEntry.event ∨ event = secondEntry.event := by
    intro event hv
    obtain ⟨ent,hn,rfl⟩ := mem_map.mp hv
    rcases he ent ((admitted_sublist _ _ _).subset hn) with rfl | rfl
    · exact .inl rfl
    · exact .inr rfl
  have hc : (insertedOf db ents).length ≤ 2 := by
    rw [insertedOf,length_map]
    exact (admitted_sublist _ _ _).length_le.trans hl
  have hd := eventDeltas_repaid (insertedOf db ents) fun event hv => by
    rcases hi event hv with rfl | rfl
    · exact ⟨rfl,rfl⟩
    · exact ⟨rfl,rfl⟩
  refine ⟨by decide,by simp,fun event hv => ?_,fun event hv user hu => ?_,?_⟩
  · rcases hi event hv with rfl | rfl
    · exact ⟨[],rfl⟩
    · exact ⟨[],rfl⟩
  · have ha : event.address = some zeroAccount := by
      rcases hi event hv with rfl | rfl
      · rfl
      · rfl
    cases ha.symm.trans hu
    decide
  · intro user hne
    rw [hd] at hne ⊢
    by_cases hu : user.val = zeroAccount
    · have hs := hsc user hu
      rw [if_pos hu,sum_replicate,nsmul_eq_mul]
      omega
    · rw [if_neg hu] at hne
      exact absurd rfl hne

def oneCall : List (StoreCall PlainVal) := [⟨repaidLog,[]⟩]

def twoCalls : List (StoreCall PlainVal) :=
  [⟨[repaidEvent "a" 10 1],[]⟩,⟨[repaidEvent "b" 11 1],[]⟩]

lemma onlyRow_zeroAccount {score} {u : VarChar 255} (h : u.val = zeroAccount) :
    (onlyRow zeroAccount score u).getD 500 = score := by
  rw [onlyRow,if_pos h]
  rfl

lemma oneCall_steady : SteadyRun plainRuntime plainPostgres defaultScoreConfig
    (emptyDatabase (onlyRow zeroAccount 600)) oneCall := by
  refine ⟨⟨[firstEntry,secondEntry],parsed_repaidLog.symm,?_⟩,trivial⟩
  refine steady_repaid (by simp) (by decide) fun user hu => ?_
  rw [emptyDatabase,onlyRow_zeroAccount hu]
  decide

lemma first_steady :
    SteadyEntries defaultScoreConfig (emptyDatabase (onlyRow zeroAccount 600)) [] [firstEntry] := by
  refine steady_repaid (by simp) (by decide) fun user hu => ?_
  rw [emptyDatabase,onlyRow_zeroAccount hu]
  decide

def afterFirst : Database :=
  (⟨[repaidEvent "a" 10 1],[]⟩ : StoreCall PlainVal).run plainRuntime plainPostgres
    defaultScoreConfig (emptyDatabase (onlyRow zeroAccount 600))

lemma afterFirst_score {u : VarChar 255} (hu : u.val = zeroAccount) :
    (afterFirst.scores u).getD 500 = 585 := by
  have hn : insertedOf (emptyDatabase (onlyRow zeroAccount 600)) [firstEntry] =
      [firstEntry.event] := rfl
  rw [afterFirst,StoreCall.run,(first_steady.effect parsed_first).2,getD_mirrored,hn,
    eventDeltas_repaid _ fun ev he => ?_,if_pos hu,emptyDatabase,onlyRow_zeroAccount hu]
  · decide
  · rw [mem_singleton.mp he]
    exact ⟨rfl,rfl⟩

lemma twoCalls_steady : SteadyRun plainRuntime plainPostgres defaultScoreConfig
    (emptyDatabase (onlyRow zeroAccount 600)) twoCalls := by
  refine ⟨⟨[firstEntry],parsed_first,first_steady⟩,⟨[secondEntry],parsed_second,?_⟩,trivial⟩
  refine steady_repaid (by simp) (by decide) fun user hu => ?_
  have hs := afterFirst_score hu
  rw [afterFirst] at hs
  rw [hs]
  decide

theorem scores_independent_of_batching_two :
    Covers repaidLog 0 oneCall ∧ Covers repaidLog 0 twoCalls ∧
    (runCalls plainRuntime plainPostgres defaultScoreConfig oneCall
    (emptyDatabase (onlyRow zeroAccount 600))).scores =
    (runCalls plainRuntime plainPostgres defaultScoreConfig twoCalls
    (emptyDatabase (onlyRow zeroAccount 600))).scores := by
  have ho : Covers repaidLog 0 oneCall := ⟨0,2,le_rfl,rfl,Nat.le_refl 2⟩
  have ht : Covers repaidLog 0 twoCalls :=
    ⟨0,1,le_rfl,rfl,1,2,le_rfl,rfl,Nat.le_refl 2⟩
  exact ⟨ho,ht,(scores_independent_of_batching repaidLog _ oneCall twoCalls ho ht
    oneCall_steady twoCalls_steady).1⟩

def defaultThenRepaid : List (SorobanRawEvent PlainVal) :=
  [defaultedEvent "a" 10 1,repaidEvent "b" 11 2]

def scoreFromTop (calls : List (StoreCall PlainVal)) : Option Int :=
  scoreOf (runCalls plainRuntime plainPostgres defaultScoreConfig calls
    (emptyDatabase (onlyRow zeroAccount 850))).scores zeroAccount

/-- In one call the deltas cancel before they saturate, in a call each the first one is lost. -/
theorem scores_depend_on_batching : Covers defaultThenRepaid 0 [⟨defaultThenRepaid,[]⟩] ∧
    Covers defaultThenRepaid 0 [⟨[defaultedEvent "a" 10 1],[]⟩,⟨[repaidEvent "b" 11 2],[]⟩] ∧
    scoreFromTop [⟨defaultThenRepaid,[]⟩] = some 850 ∧
    scoreFromTop [⟨[defaultedEvent "a" 10 1],[]⟩,⟨[repaidEvent "b" 11 2],[]⟩] = some 835 :=
  ⟨⟨0,2,le_rfl,rfl,Nat.le_refl 2⟩,⟨0,1,le_rfl,rfl,1,2,le_rfl,rfl,Nat.le_refl 2⟩,
    by decide +kernel,by decide +kernel⟩

/-- A repayment in ledger 10 takes the score from `600` to `585`; after the rollback to ledger 10
its row and this score are still there. -/
theorem rollback_leaves_repayment :
    let stored := runCalls plainRuntime plainPostgres defaultScoreConfig
      [⟨[repaidEvent "a" 10 1],[]⟩] (emptyDatabase (onlyRow zeroAccount 600))
    let after := afterRollback defaultScoreConfig [zeroContract] 10 stored
    ¬ Restores defaultScoreConfig [zeroContract] 10 (emptyDatabase (onlyRow zeroAccount 600))
      stored ∧ after.contractEvents.rows.map (·.eventId.val) = ["a"] ∧
      scoreOf after.scores zeroAccount = some 585 :=
  ⟨fun ⟨_,ho,_⟩ => rollbackFromLedger_ne_ok ho,by decide +kernel,by decide +kernel⟩

end DukaPay.Backend
