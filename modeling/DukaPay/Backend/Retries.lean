import DukaPay.Backend.Replay

/-! `withTransaction` runs the body of `storeEvents` again after a transient error. -/
namespace DukaPay.Backend
open Contractlib List

/-- What `storeEvents` has done in the end: the events that were handed to the webhooks and to the
stream of events, and the count that it returns. -/
structure Outcome where
  db : Database
  dispatched : List ContractEvent
  broadcast : List ContractEvent
  insertedCount : Except DbError Nat

/-- `storeEvents` on parsed events: the transaction with its retries, and the loop after it. -/
def storeRetried (pg : Postgres) (config : ScoreConfig) (events : List ContractEvent)
    (db : Database) (aborted : List Abort) : Except DbError Outcome := do
  let (insertedEvents,db) ← storeWithRetries pg config aborted events db
  let (announced,result) := announce insertedEvents
  pure {
    db
    dispatched := announced
    broadcast := announced
    insertedCount := result.map fun _ => insertedEvents.length }

section
variable {pg : Postgres} {config : ScoreConfig} {entries : List (Entry pg)} {db : Database}

def Abort.inserted (db : Database) (entries : List (Entry pg)) (abort : Abort) :
    List ContractEvent :=
  let before := entries.take abort.passed
  insertedOf db before ++ match (entries.drop abort.passed).head? with
    | none => []
    | some entry =>
      if abort.midway ∧ (db.contractEvents.insertAll (before.map Entry.row)).Admits entry.row ∧
        auditRows entry.event ≠ .ok [] then [entry.event] else []

structure AppliedOnce (config : ScoreConfig) (db : Database) (entries : List (Entry pg))
    (stored : Outcome) : Prop where
  scores : updateUserScoresBulk (eventUpdates config (insertedOf db entries)) db.scores =
    .ok stored.db.scores
  dispatched : stored.dispatched = insertedOf db entries
  broadcast : stored.broadcast = insertedOf db entries
  counted : stored.insertedCount = .ok (insertedOf db entries).length

variable {collected collected' : List ContractEvent × ScoreUpdates} {aborted : List Abort}

/-- **An aborted attempt** leaves the events that it has inserted; their deltas only count for those
whose round of the loop it has finished. -/
lemma abortAttempt_eq_ok {abort}
    (h : abortAttempt pg config (entries.map Entry.event) db collected abort = .ok collected') :
    collected' = (collected.1 ++ abort.inserted db entries,
    collectDeltas ContractEvent.address (fun ev => scoreDelta config ev.eventType)
    collected.2 (insertedOf db (entries.take abort.passed))) := by
  rw [abortAttempt,← map_take,← map_drop,head?_map,bind_eq_ok] at h
  obtain ⟨_,hp,h⟩ := h
  obtain ⟨-,_,rfl⟩ := foldlM_storeEvent_eq_ok hp
  rw [Abort.inserted]
  cases hn : (entries.drop abort.passed).head? with
  | none =>
    rw [hn] at h
    cases h
    simp
  | some ent =>
    simp only [hn,Option.map_some,ent.stored,bind_eq_ok,Except.ok.injEq] at h
    obtain ⟨_,rfl,h⟩ := h
    split at h
    · next hm =>
      cases h
      simp only [if_pos hm,append_assoc]
    · next hm =>
      cases h
      simp only [if_neg hm,append_nil]

lemma foldlM_abortAttempt_eq_ok
    (h : aborted.foldlM (abortAttempt pg config (entries.map Entry.event) db) collected =
    .ok collected') : collected'.1 = collected.1 ++ aborted.flatMap (Abort.inserted db entries) ∧
    ((∀ abort ∈ aborted, abort.inserted db entries = []) → collected'.2 = collected.2) := by
  induction aborted generalizing collected with
  | nil =>
    cases h
    exact ⟨(append_nil _).symm,fun _ => rfl⟩
  | cons abort aborted ih =>
    rw [foldlM_cons,bind_eq_ok] at h
    obtain ⟨_,hx,hr⟩ := h
    obtain ⟨he,hu⟩ := ih hr
    rw [abortAttempt_eq_ok hx] at he hu
    refine ⟨by rw [he,flatMap_cons,append_assoc],fun hn => ?_⟩
    rw [forall_mem_cons] at hn
    have hf := (append_eq_nil_iff.mp hn.1).1
    rw [hu hn.2,hf]
    rfl

/-- An event whose pause has to be stored. -/
def Pauses (event : ContractEvent) : Prop :=
  (PauseGuard.pauseOf event.eventType event.contractId).isSome = true

/-- **The loop after the commit** ends exactly if no event pauses; then it has announced them all. -/
lemma announce_eq (events) : (∀ ev ∈ events, ¬ Pauses ev) ∧ announce events = (events,.ok ()) ∨
    ¬ (∀ ev ∈ events, ¬ Pauses ev) ∧ ∃ e, (announce events).2 = .error e := by
  induction events with
  | nil => exact .inl ⟨by simp,rfl⟩
  | cons ev events ih =>
    rw [announce,forall_mem_cons,Pauses]
    cases hp : PauseGuard.pauseOf ev.eventType ev.contractId with
    | some pause =>
      rw [Option.any_some,PauseGuard.upsertedRow_contractsColumn]
      exact .inr ⟨fun h => h.1 rfl,_,rfl⟩
    | none =>
      rcases ih with ⟨hn,he⟩ | ⟨hn,e,he⟩
      · exact .inl ⟨⟨Bool.false_ne_true,hn⟩,by rw [he]; rfl⟩
      · exact .inr ⟨fun h => hn h.2,e,he⟩

lemma storeRetried_eq_ok {sto}
    (h : storeRetried pg config (entries.map Entry.event) db aborted = .ok sto) :
    ∃ upds evs, ((∀ abort ∈ aborted, abort.inserted db entries = []) → upds = ∅) ∧
    updateUserScoresBulk (collectDeltas ContractEvent.address
    (fun ev => scoreDelta config ev.eventType) upds (insertedOf db entries)) db.scores =
    .ok sto.db.scores ∧
    evs = aborted.flatMap (Abort.inserted db entries) ++ insertedOf db entries ∧
    sto.dispatched = (announce evs).1 ∧ sto.broadcast = (announce evs).1 ∧
    sto.insertedCount = (announce evs).2.map fun _ => evs.length := by
  simp only [storeRetried,storeWithRetries,storeAttempt,bind_eq_ok,pure_eq_ok] at h
  obtain ⟨_,⟨⟨_,upds⟩,ha,-,-,_,hp,_,hs,rfl⟩,rfl⟩ := h
  obtain ⟨-,_,rfl⟩ := foldlM_storeEvent_eq_ok hp
  obtain ⟨he,hu⟩ := foldlM_abortAttempt_eq_ok ha
  rw [nil_append] at he
  exact ⟨upds,_,hu,hs,congrArg (· ++ insertedOf db entries) he,rfl,rfl,rfl⟩

end

/-- **Transient errors**: a batch that is committed after attempts that were aborted has been
applied once exactly if none of these attempts had inserted an event and no event that was inserted
pauses or unpauses a pool. -/
theorem appliedOnce_iff (pg : Postgres) (config : ScoreConfig) (entries : List (Entry pg))
    (db : Database) (aborted : List Abort) (stored : Outcome)
    (h : storeRetried pg config (entries.map Entry.event) db aborted = .ok stored) :
    AppliedOnce config db entries stored ↔
      (∀ abort ∈ aborted, abort.inserted db entries = []) ∧
      ∀ event ∈ insertedOf db entries, ¬ Pauses event := by
  obtain ⟨_,evs,hu,ho,hv,hd,hb,hc⟩ := storeRetried_eq_ok h
  constructor
  · intro ha
    rcases announce_eq evs with ⟨hn,he⟩ | ⟨-,e,he⟩
    · rw [he] at hd
      have hs := hv.symm.trans (hd.symm.trans ha.dispatched)
      refine ⟨flatMap_eq_nil_iff.mp (append_left_eq_self.mp hs),?_⟩
      rwa [hv,hs] at hn
    · rw [he,ha.counted] at hc
      cases hc
  · rintro ⟨hn,hp⟩
    rw [flatMap_eq_nil_iff.mpr hn,nil_append] at hv
    rw [hu hn] at ho
    subst hv
    rcases announce_eq (insertedOf db entries) with ⟨-,he⟩ | ⟨hx,-⟩
    · rw [he] at hd hb hc
      exact ⟨ho,hd,hb,hc⟩
    · exact absurd hp hx

def firstStored : Database :=
  let db := emptyDatabase (onlyRow zeroAccount 585)
  { db with contractEvents := db.contractEvents.insertAll [firstEntry.row] }

/-- A repayment stored before and a new one: the first attempt fails at once, the second at the
insert of the new one. -/
theorem appliedOnce_repaid : ∃ stored,
    storeRetried plainPostgres defaultScoreConfig [firstEntry.event,secondEntry.event] firstStored
    [⟨0,false⟩,⟨1,true⟩] = .ok stored ∧
    AppliedOnce defaultScoreConfig firstStored [firstEntry,secondEntry] stored := by
  have hn : insertedOf firstStored [firstEntry,secondEntry] = [secondEntry.event] := rfl
  refine ⟨_,rfl,?_⟩
  refine (appliedOnce_iff plainPostgres defaultScoreConfig [firstEntry,secondEntry] firstStored
    [⟨0,false⟩,⟨1,true⟩] _ rfl).mpr ⟨fun abort ha => ?_,fun event he => ?_⟩
  · rcases mem_pair.mp ha with rfl | rfl
    · rfl
    · rfl
  · rw [hn,mem_singleton] at he
    rw [he]
    exact Bool.false_ne_true

/-- **Applied twice**: an attempt at storing one repayment that fails when it is committed. The
score moves by thirty points, and the event is dispatched twice. -/
theorem repayment_applied_twice :
    ¬ ∀ (pg : Postgres) (config : ScoreConfig) (entries : List (Entry pg)) (db : Database)
    (aborted : List Abort) (stored : Outcome),
    storeRetried pg config (entries.map Entry.event) db aborted = .ok stored →
    AppliedOnce config db entries stored := by
  intro h
  have ho := (h plainPostgres defaultScoreConfig [firstEntry]
    (emptyDatabase (onlyRow zeroAccount 600)) [⟨1,false⟩] _ rfl).dispatched
  have hl := congrArg List.length ho
  revert hl
  decide +kernel

end DukaPay.Backend
