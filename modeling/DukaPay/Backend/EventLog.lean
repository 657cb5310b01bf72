import Mathlib.Data.List.Perm.Subperm
import DukaPay.Backend.EventStore

/-! An insert into `contract_events` does nothing on a conflict with any of the unique keys, and a
value that a column refuses rolls back the whole call. -/
namespace DukaPay.Backend
open Contractlib List Entry Table ContractEvent

def Database.eventIds (db : Database) : List String :=
  db.contractEvents.rows.map fun row => row.eventId.val

lemma Database.nodup_eventIds (db : Database) : db.eventIds.Nodup := by
  rw [Database.eventIds,List.Nodup,pairwise_map]
  refine db.contractEvents.unique.imp fun hn he => ?_
  exact hn (.inl (Subtype.ext he))

def freshOf (db : Database) (events : List ContractEvent) : List ContractEvent :=
  events.filter fun event => event.eventId ∉ db.eventIds

section
variable (pg : Postgres) (config : ScoreConfig)

def Apart (event event' : ContractEvent) : Prop :=
  ∀ row row', eventRow pg event = .ok row → eventRow pg event' = .ok row' → ¬ Conflicts row row'

def Free (db : Database) (event : ContractEvent) : Prop :=
  ∀ row, eventRow pg event = .ok row → db.contractEvents.Admits row

def KeepsIds (events : List ContractEvent) : Prop :=
  ∀ event ∈ events, ∀ row, eventRow pg event = .ok row → row.eventId.val = event.eventId

structure CallStores (db : Database) (events : List ContractEvent) : Prop where
  rows : freshOf db events ≠ [] → ∀ event ∈ events,
    ∃ row, eventRow pg event = .ok row ∧ row.eventId.val = event.eventId
  audits : ∀ event ∈ freshOf db events, ∃ audits, auditRows event = .ok audits
  free : ∀ event ∈ freshOf db events, Free pg db event
  apart : (freshOf db events).Pairwise (Apart pg)
  scores : ∃ scores, updateUserScoresBulk (eventUpdates config (freshOf db events)) db.scores =
    .ok scores

variable {pg config} {db db' : Database} {ents : List (Entry pg)}

lemma KeepsIds.entry (hids : KeepsIds pg (ents.map event)) {ent}
    (he : ent ∈ ents) : ent.row.eventId.val = ent.event.eventId :=
  hids ent.event (mem_map_of_mem he) ent.row ent.stored

lemma not_admits_of_mem_eventIds {ent : Entry pg} (hd : ent.row.eventId.val = ent.event.eventId)
    (h : ent.event.eventId ∈ db.eventIds) : ¬ db.contractEvents.Admits ent.row := by
  obtain ⟨row,hr,he⟩ := mem_map.mp h
  intro ha
  exact ha row hr (.inl (Subtype.ext (he.trans hd.symm)))

lemma freshOf_map_event (db) (ents : List (Entry pg)) : freshOf db (ents.map event) =
    (ents.filter fun ent => ent.event.eventId ∉ db.eventIds).map event := by
  rw [freshOf,filter_map]
  rfl

variable (hids : KeepsIds pg (ents.map Entry.event))

include hids

lemma insertedOf_eq_freshOf (hr : ∀ event ∈ freshOf db (ents.map Entry.event), Free pg db event)
    (ha : (freshOf db (ents.map Entry.event)).Pairwise (Apart pg)) :
    insertedOf db ents = freshOf db (ents.map Entry.event) := by
  rw [freshOf_map_event] at hr ha ⊢
  rw [insertedOf]
  refine congrArg (List.map Entry.event) (Table.admitted_eq_filter ?_ ?_ ?_)
  · intro ent he ho
    rw [decide_eq_false_iff_not,not_not] at ho
    exact not_admits_of_mem_eventIds (hids.entry he) ho
  · intro ent he hf
    exact hr ent.event (mem_map_of_mem (mem_filter.mpr ⟨he,hf⟩)) _ ent.stored
  · rw [pairwise_map] at ha
    exact ha.imp fun {a b} h => h _ _ a.stored b.stored

lemma eventIds_insertAll (hr : db'.contractEvents = db.contractEvents.insertAll (ents.map row)) :
    db'.eventIds = db.eventIds ++ (insertedOf db ents).map eventId := by
  rw [Database.eventIds,hr,rows_insertAll,map_append,insertedOf,map_map,map_map]
  refine congrArg (db.eventIds ++ ·) (map_congr_left fun ent he => ?_)
  exact hids.entry ((admitted_sublist _ _ _).subset he)

lemma admitted_of_complete (hn : ((ents.map Entry.event).map ContractEvent.eventId).Nodup)
    (hs : db'.contractEvents = db.contractEvents.insertAll (ents.map Entry.row))
    (hc : ∀ event ∈ ents.map Entry.event, event.eventId ∈ db'.eventIds) :
    Table.admitted Entry.row db.contractEvents ents =
    ents.filter fun ent => ent.event.eventId ∉ db.eventIds := by
  have hb := Table.admitted_sublist Entry.row db.contractEvents ents
  have hr : ∀ ent ∈ Table.admitted Entry.row db.contractEvents ents,
      ent.event.eventId ∉ db.eventIds := by
    intro ent he ho
    exact not_admits_of_mem_eventIds (hids.entry (hb.subset he)) ho
      (Table.admits_of_mem_admitted he)
  rw [map_map] at hn
  have ha : (ents.filter fun ent => ent.event.eventId ∉ db.eventIds) ⊆
      Table.admitted Entry.row db.contractEvents ents := by
    intro ent he
    obtain ⟨hm,hw⟩ := mem_filter.mp he
    have hd := hc ent.event (mem_map_of_mem hm)
    rw [eventIds_insertAll hids hs,mem_append] at hd
    rcases hd with ho | hd
    · exact absurd ho (of_decide_eq_true hw)
    rw [insertedOf,map_map] at hd
    obtain ⟨_,ht,hq⟩ := mem_map.mp hd
    exact inj_on_of_nodup_map hn (hb.subset ht) hm hq ▸ ht
  -- both are sublists of the entries with the same members
  have hf := hb.filter fun ent => decide (ent.event.eventId ∉ db.eventIds)
  rw [filter_eq_self.mpr fun ent he => decide_eq_true (hr ent he)] at hf
  refine hf.eq_of_length_le ?_
  exact (subperm_of_subset (hn.of_map.filter _) ha).length_le

omit hids

variable {ScVal : Type} {rt : Runtime ScVal} {call : List (SorobanRawEvent ScVal)}

lemma eventIds_subset (call) (db : Database) :
    db.eventIds ⊆ (storeEvents rt pg config call db).2.eventIds := by
  rcases storeEvents_cases pg config rt call db with
    ⟨-,ents,-,-,-,hc⟩ | ⟨-,quarantine,-,hd⟩
  · refine map_subset _ ?_
    rw [hc.contractEvents]
    exact subset_insertAll _ _
  · rw [hd]
    exact List.Subset.refl _

def AddsFresh (pg : Postgres) (config : ScoreConfig) (db : Database) (events : List ContractEvent)
    (db' : Database) : Prop :=
  ∃ entries : List (Entry pg), entries.map Entry.event = freshOf db events ∧
    db'.contractEvents.rows = db.contractEvents.rows ++ entries.map Entry.row ∧
    updateUserScoresBulk (eventUpdates config (freshOf db events)) db.scores = .ok db'.scores

lemma Commits.addsFresh (hids : KeepsIds pg (ents.map Entry.event))
    (h : CallStores pg config db (ents.map Entry.event)) (hc : Commits config db ents db')
    : AddsFresh pg config db (ents.map Entry.event) db' := by
  rw [AddsFresh,← insertedOf_eq_freshOf hids h.free h.apart]
  refine ⟨Table.admitted Entry.row db.contractEvents ents,rfl,?_,hc.scores⟩
  rw [hc.contractEvents,Table.rows_insertAll]

lemma CallStores.effect (hids : KeepsIds pg (parsedEvents rt call))
    (h : CallStores pg config db (parsedEvents rt call)) :
    AddsFresh pg config db (parsedEvents rt call) (storeEvents rt pg config call db).2 := by
  by_cases hl : freshOf db (parsedEvents rt call) = []
  · rcases storeEvents_cases pg config rt call db with
      ⟨-,ents,-,he,-,hc⟩ | ⟨-,quarantine,-,hd⟩
    · rw [← he] at hids h ⊢
      exact hc.addsFresh hids h
    -- a call without a fresh event may fail: it would not have changed anything
    rw [AddsFresh,hl,hd]
    exact ⟨[],rfl,(append_nil _).symm,rfl⟩
  · obtain ⟨ents,he⟩ := exists_entries fun event hv =>
      (h.rows hl event hv).imp fun _ hr => hr.1
    have hc : Commits config db ents (storeEvents rt pg config call db).2 := by
      rw [← he] at hids h
      have hn := insertedOf_eq_freshOf hids h.free h.apart
      exact storeEvents_returns he (hn ▸ h.audits) (hn ▸ h.scores)
    rw [← he] at hids h ⊢
    exact hc.addsFresh hids h

lemma complete_call_iff (hids : KeepsIds pg (parsedEvents rt call))
    (hnd : ((parsedEvents rt call).map ContractEvent.eventId).Nodup) :
    (∀ event ∈ parsedEvents rt call,
    event.eventId ∈ (storeEvents rt pg config call db).2.eventIds) ↔
    CallStores pg config db (parsedEvents rt call) := by
  constructor
  · intro hco
    rcases storeEvents_cases pg config rt call db with
      ⟨-,ents,-,he,hu,hc⟩ | ⟨-,quarantine,-,hd⟩
    · rw [← he] at hids hnd hco ⊢
      have ha := admitted_of_complete hids hnd hc.contractEvents hco
      have hi : insertedOf db ents = freshOf db (ents.map Entry.event) := by
        rw [freshOf_map_event,insertedOf,ha]
      refine ⟨fun _ event hv => ?_,hi ▸ hu,?_,?_,?_⟩
      · obtain ⟨ent,hn,rfl⟩ := mem_map.mp hv
        exact ⟨ent.row,ent.stored,hids.entry hn⟩
      · rw [← hi]
        intro event hv row hr
        obtain ⟨ent,hn,rfl⟩ := mem_map.mp hv
        cases ent.stored.symm.trans hr
        exact Table.admits_of_mem_admitted hn
      · rw [← hi,insertedOf,pairwise_map]
        refine (Table.pairwise_admitted _ _).imp fun {a b} hne row row' hr hr' => ?_
        cases a.stored.symm.trans hr
        cases b.stored.symm.trans hr'
        exact hne
      · rw [← hi]
        exact ⟨_,hc.scores⟩
    · -- nothing was stored, so nothing was fresh
      have hl : freshOf db (parsedEvents rt call) = [] := by
        refine filter_eq_nil_iff.mpr fun event hv hf => ?_
        have hid := hco event hv
        rw [hd] at hid
        exact of_decide_eq_true hf hid
      constructor
      · exact fun hne => absurd hl hne
      · simp [hl]
      · simp [hl]
      · simp [hl]
      · rw [hl]
        exact ⟨db.scores,rfl⟩
  · intro h event hv
    obtain ⟨ents,he,hs,-⟩ := h.effect hids
    by_cases ho : event.eventId ∈ db.eventIds
    · exact eventIds_subset call db ho
    have hf : event ∈ freshOf db (parsedEvents rt call) := mem_filter.mpr ⟨hv,decide_eq_true ho⟩
    rw [← he] at hf
    obtain ⟨ent,hn,rfl⟩ := mem_map.mp hf
    rw [Database.eventIds,hs,map_append,mem_append,map_map]
    exact .inr (mem_map.mpr ⟨ent,hn,hids ent.event hv _ ent.stored⟩)

end

section
variable (pg : Postgres) (config : ScoreConfig)

def ScoresAccept (scores : ScoreTable) : List ScoreUpdates → Prop
  | [] => True
  | updates :: rest =>
    ∃ scores', updateUserScoresBulk updates scores = .ok scores' ∧ ScoresAccept scores' rest

/-- **What the events of calls need in order to be stored**: in every call that brings something
new, the columns take the values of all its events, the new ones conflict neither with the table nor
with each other, and their audit rows and score updates are possible. -/
structure Storable (db : Database) (calls : List (List ContractEvent)) : Prop where
  rows : ∀ events ∈ calls, freshOf db events ≠ [] → ∀ event ∈ events,
    ∃ row, eventRow pg event = .ok row ∧ row.eventId.val = event.eventId
  audits : ∀ events ∈ calls, ∀ event ∈ freshOf db events, ∃ audits, auditRows event = .ok audits
  free : ∀ events ∈ calls, ∀ event ∈ freshOf db events, Free pg db event
  apart : (calls.flatMap (freshOf db)).Pairwise (Apart pg)
  scores : ScoresAccept db.scores
    (calls.map fun events => eventUpdates config (freshOf db events))

variable {pg config} {db db' : Database} {events : List ContractEvent}

lemma eventIds_of_addsFresh (hids : KeepsIds pg events) (h : AddsFresh pg config db events db') :
    db'.eventIds = db.eventIds ++ (freshOf db events).map eventId := by
  obtain ⟨_,he,hr,-⟩ := h
  rw [Database.eventIds,hr,map_append,← he,map_map,map_map]
  refine congrArg (db.eventIds ++ ·) (map_congr_left fun ent hn => ?_)
  have hm : ent.event ∈ freshOf db events := he ▸ mem_map_of_mem hn
  exact hids ent.event (mem_of_mem_filter hm) ent.row ent.stored

lemma freshOf_of_addsFresh (hids : KeepsIds pg events) (h : AddsFresh pg config db events db')
    {others} (hd : ∀ event ∈ events, ∀ other ∈ others, event.eventId ≠ other.eventId) :
    freshOf db' others = freshOf db others := by
  refine filter_congr fun other ho => ?_
  rw [eventIds_of_addsFresh hids h,decide_eq_decide,mem_append,not_or,and_iff_left_iff_imp]
  rintro - hm
  obtain ⟨event,hv,he⟩ := mem_map.mp hm
  exact hd event (mem_of_mem_filter hv) other ho he

lemma free_iff_of_addsFresh (h : AddsFresh pg config db events db') (other) :
    Free pg db' other ↔ Free pg db other ∧ ∀ event ∈ freshOf db events, Apart pg event other := by
  obtain ⟨_,he,hs,-⟩ := h
  constructor
  · intro hf
    constructor
    · intro row hw r hr
      exact hf row hw r (by rw [hs]; exact mem_append_left _ hr)
    · intro event hv row row' hw hr'
      rw [← he] at hv
      obtain ⟨ent,hn,rfl⟩ := mem_map.mp hv
      cases ent.stored.symm.trans hw
      refine hf row' hr' ent.row ?_
      rw [hs]
      exact mem_append_right _ (mem_map_of_mem hn)
  · rintro ⟨hf,ha⟩ row hw r hr
    rw [hs,mem_append] at hr
    rcases hr with hr | hr
    · exact hf row hw r hr
    · obtain ⟨ent,hn,rfl⟩ := mem_map.mp hr
      exact ha ent.event (he ▸ mem_map_of_mem hn) _ _ ent.stored hw

lemma storable_cons_iff (hids : KeepsIds pg events) (h : AddsFresh pg config db events db') {calls}
    (hd : ∀ event ∈ events, ∀ others ∈ calls, ∀ other ∈ others, event.eventId ≠ other.eventId) :
    Storable pg config db (events :: calls) ↔
    CallStores pg config db events ∧ Storable pg config db' calls := by
  have hr : ∀ others ∈ calls, freshOf db' others = freshOf db others := fun others ht =>
    freshOf_of_addsFresh hids h fun event he other ho =>
      hd event he others ht other ho
  have hf : calls.flatMap (freshOf db') = calls.flatMap (freshOf db) := by
    rw [flatMap_def,flatMap_def,map_congr_left hr]
  have hu : (calls.map fun others => eventUpdates config (freshOf db' others)) =
      calls.map fun others => eventUpdates config (freshOf db others) :=
    map_congr_left fun others ht => congrArg _ (hr others ht)
  obtain ⟨-,-,-,hsc⟩ := id h
  constructor
  · rintro ⟨hs,ha,hfr,hp,scores',hs',hre⟩
    cases hsc.symm.trans hs'
    rw [forall_mem_cons] at hs ha hfr
    rw [flatMap_cons,pairwise_append] at hp
    refine ⟨⟨hs.1,ha.1,hfr.1,hp.1,_,hsc⟩,?_,?_,?_,?_,?_⟩
    · intro others ht hn
      exact hs.2 others ht (hr others ht ▸ hn)
    · intro others ht
      rw [hr others ht]
      exact ha.2 others ht
    · intro others ht other ho
      rw [hr others ht] at ho
      refine (free_iff_of_addsFresh h other).mpr ⟨hfr.2 others ht other ho,?_⟩
      intro event he
      exact hp.2.2 event he other (mem_flatMap.mpr ⟨others,ht,ho⟩)
    · rw [hf]
      exact hp.2.1
    · rw [hu]
      exact hre
  · rintro ⟨hc,hs,ha,hfr,hp,hre⟩
    rw [hf] at hp
    rw [hu] at hre
    refine ⟨?_,?_,?_,?_,_,hsc,hre⟩
    · refine forall_mem_cons.mpr ⟨hc.rows,fun others ht hn => ?_⟩
      exact hs others ht (hr others ht ▸ hn)
    · refine forall_mem_cons.mpr ⟨hc.audits,fun others ht => ?_⟩
      exact hr others ht ▸ ha others ht
    · refine forall_mem_cons.mpr ⟨hc.free,fun others ht other ho => ?_⟩
      rw [← hr others ht] at ho
      exact ((free_iff_of_addsFresh h other).mp (hfr others ht other ho)).1
    · rw [flatMap_cons,pairwise_append]
      refine ⟨hc.apart,hp,fun event he other ho => ?_⟩
      obtain ⟨others,ht,ho⟩ := mem_flatMap.mp ho
      rw [← hr others ht] at ho
      exact ((free_iff_of_addsFresh h other).mp (hfr others ht other ho)).2 event he

lemma Storable.head {calls}
    (h : Storable pg config db (events :: calls)) : CallStores pg config db events := by
  obtain ⟨scs,hs,-⟩ := h.scores
  exact ⟨h.rows events (mem_cons_self ..),h.audits events (mem_cons_self ..),
    h.free events (mem_cons_self ..),(pairwise_append.mp h.apart).1,scs,hs⟩

variable {ScVal : Type} {rt : Runtime ScVal} {calls : List (List (SorobanRawEvent ScVal))}

lemma eventIds_subset_storeAll (calls) (db : Database) :
    db.eventIds ⊆ (storeAll rt pg config calls db).eventIds := by
  induction calls generalizing db with
  | nil => exact List.Subset.refl _
  | cons call calls ih => exact List.Subset.trans (eventIds_subset call db) (ih _)

variable {call : List (SorobanRawEvent ScVal)}

lemma mem_eventIds_storeEvents (hids : KeepsIds pg (parsedEvents rt call)) {id}
    (h : id ∈ (storeEvents rt pg config call db).2.eventIds) :
    id ∈ db.eventIds ∨ ∃ event ∈ parsedEvents rt call, event.eventId = id := by
  rcases storeEvents_cases pg config rt call db with
    ⟨-,ents,-,he,-,hc⟩ | ⟨-,quarantine,-,hd⟩
  · rw [← he] at hids ⊢
    rw [eventIds_insertAll hids hc.contractEvents,mem_append] at h
    refine h.imp_right fun hm => ?_
    obtain ⟨event,hv,rfl⟩ := mem_map.mp hm
    obtain ⟨ent,hn,rfl⟩ := mem_map.mp hv
    exact ⟨ent.event,mem_map_of_mem ((admitted_sublist _ _ _).subset hn),rfl⟩
  · rw [hd] at h
    exact .inl h

lemma mem_eventIds_storeAll (hids : ∀ call ∈ calls, KeepsIds pg (parsedEvents rt call))
    {id} (h : id ∈ (storeAll rt pg config calls db).eventIds) :
    id ∈ db.eventIds ∨ ∃ call ∈ calls, ∃ event ∈ parsedEvents rt call, event.eventId = id := by
  induction calls generalizing db with
  | nil => exact .inl h
  | cons call calls ih =>
    rw [forall_mem_cons] at hids
    rcases ih hids.2 h with hm | ⟨ltr,hl,he⟩
    · refine (mem_eventIds_storeEvents hids.1 hm).imp_right fun he => ?_
      exact ⟨call,mem_cons_self ..,he⟩
    · exact .inr ⟨ltr,mem_cons_of_mem call hl,he⟩

lemma complete_calls_iff (hids : ∀ call ∈ calls, KeepsIds pg (parsedEvents rt call))
    (hn : ((calls.flatMap (parsedEvents rt)).map eventId).Nodup) :
    (∀ call ∈ calls, ∀ event ∈ parsedEvents rt call,
    event.eventId ∈ (storeAll rt pg config calls db).eventIds) ↔
    Storable pg config db (calls.map (parsedEvents rt)) := by
  induction calls generalizing db with
  | nil =>
    refine iff_of_true (fun call hc => absurd hc not_mem_nil) ?_
    exact ⟨by simp,by simp,by simp,by simp,trivial⟩
  | cons call calls ih =>
    rw [forall_mem_cons] at hids
    rw [flatMap_cons,map_append,nodup_append] at hn
    obtain ⟨hno,hnod,ha⟩ := hn
    have hd : ∀ event ∈ parsedEvents rt call, ∀ ltr ∈ calls,
        ∀ other ∈ parsedEvents rt ltr, event.eventId ≠ other.eventId := by
      intro event hv ltr hl other ht
      exact ha _ (mem_map_of_mem hv) _ (mem_map_of_mem (mem_flatMap.mpr ⟨ltr,hl,ht⟩))
    have ho : CallStores pg config db (parsedEvents rt call) →
        (Storable pg config db ((call :: calls).map (parsedEvents rt)) ↔
          CallStores pg config db (parsedEvents rt call) ∧
          Storable pg config (storeEvents rt pg config call db).2
            (calls.map (parsedEvents rt))) := by
      intro hc
      refine storable_cons_iff hids.1 (hc.effect hids.1) fun event hv others hh => ?_
      obtain ⟨ltr,hl,rfl⟩ := mem_map.mp hh
      exact hd event hv ltr hl
    constructor
    · intro hm
      rw [forall_mem_cons] at hm
      have hc : CallStores pg config db (parsedEvents rt call) := by
        rw [← complete_call_iff hids.1 hno]
        intro event hv
        -- a later call cannot have stored it
        refine (mem_eventIds_storeAll hids.2 (hm.1 event hv)).resolve_right ?_
        rintro ⟨ltr,hl,other,ht,he⟩
        exact hd event hv ltr hl other ht he.symm
      exact (ho hc).mpr ⟨hc,(ih hids.2 hnod).mp hm.2⟩
    · intro hs
      have hc : CallStores pg config db (parsedEvents rt call) := hs.head
      refine forall_mem_cons.mpr ⟨fun event hv => ?_,?_⟩
      · exact eventIds_subset_storeAll calls _ ((complete_call_iff hids.1 hno).mpr hc event hv)
      · exact (ih hids.2 hnod).mpr ((ho hc).mp hs).2

lemma keepsId_of_mem {event : ContractEvent} (h : event.eventId ∈ db.eventIds) {row}
    (hr : eventRow pg event = .ok row) : row.eventId.val = event.eventId := by
  obtain ⟨sto,-,he⟩ := mem_map.mp h
  refine varchar_val (eventRow_eq_ok hr).1 ?_
  rw [← he]
  exact sto.eventId.property

lemma Storable.keepsIds {calls} (h : Storable pg config db calls)
    (hv : events ∈ calls) : KeepsIds pg events := by
  intro event he row hr
  by_cases ho : event.eventId ∈ db.eventIds
  · exact keepsId_of_mem ho hr
  have hn : freshOf db events ≠ [] := by
    have hf : event ∈ freshOf db events := mem_filter.mpr ⟨he,decide_eq_true ho⟩
    exact ne_nil_of_mem hf
  obtain ⟨_,hr',hd⟩ := h.rows events hv hn event he
  cases hr.symm.trans hr'
  exact hd

lemma map_eventId_parsedEvents (ha : ∀ raw ∈ call, ∃ prs, parseEvent rt raw = .ok (some prs)) :
    (parsedEvents rt call).map eventId = call.map SorobanRawEvent.id := by
  induction call with
  | nil => rfl
  | cons raw call ih =>
    rw [forall_mem_cons] at ha
    obtain ⟨⟨prs,hp⟩,hr⟩ := ha
    have hc : parsedEvents rt (raw :: call) = prs :: parsedEvents rt call := by
      rw [parsedEvents,filterMap_cons,hp]
      rfl
    rw [hc,map_cons,map_cons,ih hr,(parseEvent_source hp).1]

/-- **When the event log is complete.** Raw events with distinct ids that are all accepted are
handed to `storeEvents` in calls. Afterwards there is exactly one row for each of them if and only
if they are storable. -/
theorem event_log_complete_iff (rt : Runtime ScVal) (pg : Postgres) (config : ScoreConfig)
    (db : Database) (calls : List (List (SorobanRawEvent ScVal)))
    (hdistinct : (calls.flatten.map SorobanRawEvent.id).Nodup)
    (haccepted : ∀ raw ∈ calls.flatten, ∃ parsed, parseEvent rt raw = .ok (some parsed)) :
    (∀ raw ∈ calls.flatten, (storeAll rt pg config calls db).eventIds.count raw.id = 1) ↔
      Storable pg config db (calls.map (parsedEvents rt)) := by
  have hm : ∀ call ∈ calls,
      (parsedEvents rt call).map ContractEvent.eventId = call.map SorobanRawEvent.id := by
    intro call hc
    exact map_eventId_parsedEvents fun raw hr =>
      haccepted raw (mem_flatten.mpr ⟨call,hc,hr⟩)
  have hn : ((calls.flatMap (parsedEvents rt)).map ContractEvent.eventId).Nodup := by
    rw [map_flatMap,flatMap_def,map_congr_left hm,← map_flatten]
    exact hdistinct
  have hu : (∀ raw ∈ calls.flatten,(storeAll rt pg config calls db).eventIds.count raw.id = 1) ↔
      ∀ call ∈ calls, ∀ event ∈ parsedEvents rt call,
        event.eventId ∈ (storeAll rt pg config calls db).eventIds := by
    rw [forall_mem_flatten]
    refine forall₂_congr fun call hc => ?_
    rw [← forall_mem_map (f := SorobanRawEvent.id) (P := fun id =>
        (storeAll rt pg config calls db).eventIds.count id = 1),← hm call hc,
      forall_mem_map]
    refine forall₂_congr fun event _ => ?_
    rw [(Database.nodup_eventIds _).count]
    split
    · next hmm => exact iff_of_true rfl hmm
    · next hmm => exact iff_of_false (by decide) hmm
  rw [hu]
  constructor
  · intro ho
    refine (complete_calls_iff ?_ hn).mp ho
    intro call hc event he row hw
    exact keepsId_of_mem (ho call hc event he) hw
  · intro hs
    refine (complete_calls_iff ?_ hn).mpr hs
    exact fun call hc => hs.keepsIds (mem_map_of_mem hc)

end

variable (ledger ledger' : Nat)

def twoRepayments : List (List (SorobanRawEvent PlainVal)) :=
  [[repaidEvent "a" ledger 1],[repaidEvent "b" ledger' 1]]

lemma twoRepayments_accepted : ∀ raw ∈ (twoRepayments ledger ledger').flatten,
    ∃ prs, parseEvent plainRuntime raw = .ok (some prs) := by
  intro raw hr
  simp only [twoRepayments,flatten_cons,flatten_nil,append_nil,
    singleton_append,mem_cons,not_mem_nil,or_false] at hr
  rcases hr with rfl | rfl
  · exact ⟨_,rfl⟩
  · exact ⟨_,rfl⟩

def afterTwoRepayments : Database :=
  storeAll plainRuntime plainPostgres defaultScoreConfig (twoRepayments ledger ledger')
    (emptyDatabase fun _ => none)

/-- Repayments in different ledgers are both stored. -/
theorem event_log_complete_two_ledgers :
    ((twoRepayments 10 11).flatten.map SorobanRawEvent.id).Nodup ∧
    (∀ raw ∈ (twoRepayments 10 11).flatten, (afterTwoRepayments 10 11).eventIds.count raw.id = 1) ∧
    Storable plainPostgres defaultScoreConfig (emptyDatabase fun _ => none)
    ((twoRepayments 10 11).map (parsedEvents plainRuntime)) := by
  have hd : ((twoRepayments 10 11).flatten.map SorobanRawEvent.id).Nodup := by decide
  have hids : (afterTwoRepayments 10 11).eventIds = ["a","b"] := by decide +kernel
  have hc : ∀ raw ∈ (twoRepayments 10 11).flatten,
      (afterTwoRepayments 10 11).eventIds.count raw.id = 1 := by
    rw [hids]
    decide
  exact ⟨hd,hc,(event_log_complete_iff _ _ _ _ _ hd (twoRepayments_accepted 10 11)).mp hc⟩

/-- Of two repayments of one loan in one ledger the second one is lost. -/
theorem event_log_merges_repayments : ((twoRepayments 10 10).flatten.map SorobanRawEvent.id).Nodup ∧
    (∀ raw ∈ (twoRepayments 10 10).flatten,
    ∃ parsed, parseEvent plainRuntime raw = .ok (some parsed)) ∧
    (afterTwoRepayments 10 10).eventIds.count "b" = 0 := by
  have hids : (afterTwoRepayments 10 10).eventIds = ["a"] := by decide +kernel
  refine ⟨by decide,twoRepayments_accepted 10 10,?_⟩
  rw [hids]
  decide

end DukaPay.Backend
