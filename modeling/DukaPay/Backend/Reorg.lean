import DukaPay.Backend.Chain
import DukaPay.Backend.Replay

/-! While the RPC follows one chain, the recorded ranges are verified, follow each other from the
first position on, carry the digests of the chain and are stored as a whole. -/
namespace DukaPay.Backend
open Contractlib Setting List

section
variable {ScVal : Type} (ix : Indexer ScVal) (chain : Chain ScVal ix.contractIds)

def HoldsRange (startLedger endLedger : Nat) (db : Database) : Prop :=
  ∀ event, chain.Parsed ix event → startLedger ≤ event.ledger → event.ledger ≤ endLedger →
    ∃ row ∈ db.contractEvents.rows, eventRow ix.pg event = .ok row

def Reaches (origin : Nat) (checkpoints : List Checkpoint) (ledger : Nat) : Prop :=
  ledger = origin ∨ ∃ c ∈ checkpoints, c.rangeEnd = ledger

/-- **The tables are in step with the chain**, from the position `origin` on. -/
structure Synced (origin : Nat) (w : World) : Prop where
  verified : ∀ c ∈ w.db.checkpoints, c.status = .verified
  digest : ∀ c ∈ w.db.checkpoints, ∃ digest, c.rangeDigest = some digest ∧
    digestEvents ix (chain.between c.rangeStart c.rangeEnd) = .ok digest
  start : ∀ c ∈ w.db.checkpoints, origin < c.rangeStart ∧ c.rangeStart ≤ w.cursor + 1
  linked : ∀ c ∈ w.db.checkpoints, ∃ previous, previous + 1 = c.rangeStart ∧
    Reaches origin w.db.checkpoints previous
  cursor : Reaches origin w.db.checkpoints w.cursor
  holds : ∀ c ∈ w.db.checkpoints, HoldsRange ix chain c.rangeStart c.rangeEnd w.db
  sound : ∀ row ∈ w.db.contractEvents.rows, chain.HasRow ix row

structure SameTables (w w' : World) : Prop where
  contractEvents : w'.db.contractEvents = w.db.contractEvents
  checkpoints : w'.db.checkpoints = w.db.checkpoints
  cursor : w'.cursor = w.cursor

lemma synced_of_empty {w : World} (hs : w.db.contractEvents.rows = [])
    (hp : w.db.checkpoints = []) : Synced ix chain w.cursor w := by
  have hn : ∀ {P : Checkpoint → Prop}, ∀ c ∈ w.db.checkpoints, P c := by
    rw [hp]
    exact fun c hc => absurd hc not_mem_nil
  refine ⟨hn,hn,hn,hn,.inl rfl,hn,?_⟩
  rw [hs]
  exact fun row hr => absurd hr not_mem_nil

variable {ix chain} {origin : Nat} {w w' w'' : World}

lemma SameTables.refl (w) : SameTables w w := ⟨rfl,rfl,rfl⟩

lemma SameTables.trans (h : SameTables w w') (h' : SameTables w' w'') : SameTables w w'' :=
  ⟨h'.1.trans h.1,h'.2.trans h.2,h'.3.trans h.3⟩

variable (h : Synced ix chain origin w)

include h

lemma Synced.same (hs : SameTables w w') : Synced ix chain origin w' := by
  obtain ⟨he,hc,hr⟩ := hs
  refine ⟨?_,?_,?_,?_,?_,?_,?_⟩
  · exact hc ▸ h.verified
  · exact hc ▸ h.digest
  · rw [hc,hr]
    exact h.start
  · exact hc ▸ h.linked
  · rw [hc,hr]
    exact h.cursor
  · simp only [HoldsRange,hc,he]
    exact h.holds
  · exact he ▸ h.sound

lemma Synced.holds_upTo {n} (hr : Reaches origin w.db.checkpoints n) :
    HoldsRange ix chain (origin + 1) n w.db := by
  -- the ranges follow each other, back to where the indexer began
  induction n using Nat.strong_induction_on with
  | _ n ih =>
    intro ev hp hl hh
    rcases hr with rfl | ⟨c,hc,rfl⟩
    · omega
    by_cases hn : c.rangeStart ≤ ev.ledger
    · exact h.holds c hc ev hp hn hh
    obtain ⟨prev,_,he⟩ := h.linked c hc
    have hrn := c.range_check
    exact ih prev (by omega) he ev hp hl (by omega)

lemma Synced.mirrors : Mirrors ix chain origin w.cursor w.db where
  complete event hp hl hhi := h.holds_upTo h.cursor event hp hl hhi
  sound row hr _ _ := h.sound row hr

lemma Synced.origin_le : origin ≤ w.cursor := by
  rcases h.cursor with he | ⟨c,hc,he⟩
  · exact he.ge
  have := (h.start c hc).1
  have := c.range_check
  omega

end

section
variable {ScVal : Type} {ix : Indexer ScVal} {A B : Chain ScVal ix.contractIds} {origin : Nat}
  {w w' : World}

lemma Chain.Parsed.congr {event} (h : A.Parsed ix event)
    (ha : A.eventsAt event.ledger = B.eventsAt event.ledger) : B.Parsed ix event := by
  obtain ⟨raw,hr,hp⟩ := h
  exact ⟨raw,ha ▸ hr,hp⟩

lemma Synced.congr (h : Synced ix A origin w)
    (hn : ∀ c ∈ w.db.checkpoints, ∀ lg ≤ c.rangeEnd, A.eventsAt lg = B.eventsAt lg)
    (hs : ∀ row ∈ w.db.contractEvents.rows, A.eventsAt row.ledger = B.eventsAt row.ledger) :
    Synced ix B origin w where
  verified := h.verified
  digest c hc := by
    rw [← Timeline.between_congr (hn c hc)]
    exact h.digest c hc
  start := h.start
  linked := h.linked
  cursor := h.cursor
  holds c hc ev hp hl hhi := h.holds c hc ev (hp.congr (hn c hc ev.ledger hhi).symm) hl hhi
  sound row hr := by
    obtain ⟨ev,hp,he⟩ := h.sound row hr
    refine ⟨ev,hp.congr ?_,he⟩
    rw [← (eventRow_eq_ok he).2.2.2.1]
    exact hs row hr

variable (A B) in
/-- **The chains differ only after what is recorded**: they agree up to the end of the latest
verified range, and nothing is stored from beyond it. -/
structure Settled (db : Database) : Prop where
  agree : ∀ c ∈ latestVerified db.checkpoints, ∀ ledger ≤ c.rangeEnd,
    A.eventsAt ledger = B.eventsAt ledger
  settled : ∀ row ∈ db.contractEvents.rows, ∃ c ∈ latestVerified db.checkpoints,
    row.ledger ≤ c.rangeEnd

variable (ix B) in
/-- Each latest verified range has another digest on the chain. -/
structure Changed (db : Database) : Prop where
  recorded : latestVerified db.checkpoints ≠ []
  digest : ∀ c ∈ latestVerified db.checkpoints, ∀ digest, c.rangeDigest = some digest →
    digestEvents ix (B.between c.rangeStart c.rangeEnd) ≠ .ok digest

variable {c : Checkpoint} {checkpoints : List Checkpoint}

lemma eq_nil_of_latestVerified_eq_nil (hv : ∀ c ∈ checkpoints, c.status = .verified)
    (h : latestVerified checkpoints = []) : checkpoints = [] := by
  cases hx : (checkpoints.map Checkpoint.rangeEnd).max? with
  | none => exact map_eq_nil_iff.mp (max?_eq_none_iff.mp hx)
  | some =>
    obtain ⟨hm,hl⟩ := max?_eq_some_iff.mp hx
    obtain ⟨c,hc,rfl⟩ := mem_map.mp hm
    have ht : c ∈ latestVerified checkpoints :=
      mem_filter.mpr ⟨hc,decide_eq_true ⟨hv c hc,fun c' hc' _ => hl _ (mem_map_of_mem hc')⟩⟩
    rw [h] at ht
    exact absurd ht not_mem_nil

lemma le_of_mem_latestVerified {c'} (h : c ∈ latestVerified checkpoints)
    (hc' : c' ∈ checkpoints) (hv : c'.status = .verified) : c'.rangeEnd ≤ c.rangeEnd :=
  (of_decide_eq_true (mem_filter.mp h).2).2 c' hc' hv

lemma Synced.switch (h : Synced ix A origin w) (hs : Settled A B w.db) : Synced ix B origin w := by
  refine h.congr (fun c hc ledger hl => ?_) fun row hr => ?_
  · have hn : latestVerified w.db.checkpoints ≠ [] := by
      intro he
      rw [eq_nil_of_latestVerified_eq_nil h.verified he] at hc
      exact absurd hc not_mem_nil
    obtain ⟨d,hd⟩ := exists_mem_of_ne_nil _ hn
    exact hs.agree d hd ledger (hl.trans (le_of_mem_latestVerified hd hc (h.verified c hc)))
  · obtain ⟨c,hc,hl⟩ := hs.settled row hr
    exact hs.agree c hc row.ledger hl

lemma Synced.rangeDigest_ne_none (h : Synced ix A origin w) :
    ∀ c ∈ latestVerified w.db.checkpoints, c.rangeDigest ≠ none := by
  intro c hc
  obtain ⟨dig,hd,-⟩ := h.digest c (mem_latestVerified hc).1
  rw [hd]
  exact Option.some_ne_none dig

end

section
variable {ScVal : Type} {ix : Indexer ScVal} {chain : Chain ScVal ix.contractIds} {origin : Nat}
  {inv : World → Prop} {w w' : World}

def following (chain : Chain ScVal ix.contractIds) (inv : World → Prop) :
    Setting Request (Answer ScVal) World :=
  .alone inv fun _ => chain.Answers

lemma following_fetch (lo hi) : (following chain inv).Ensures
    (fun evs w' => evs = chain.between lo hi ∧ w' = w)
    (fetchEventsInRange lo hi) w := by
  refine ensures_bind (alone_query fun ans ha => ?_)
  cases he : eventsOfPages lo hi ans.pages with
  | none => trivial
  | some => exact alone_pure ⟨eventsOfPages_serves ha he,rfl⟩

lemma following_digest (evs) : (following chain inv).Ensures
    (fun dig w' => digestEvents ix evs = .ok dig ∧ w' = w) (digestProgram ix evs) w := by
  rw [digestProgram]
  cases hd : digestEvents ix evs with
  | error => trivial
  | ok => exact alone_pure ⟨rfl,rfl⟩

lemma sameTables_hand (lo hi) : SameTables w (w.hand lo hi) := ⟨rfl,rfl,rfl⟩

lemma sameTables_quarantine (ev : SorobanRawEvent ScVal) (msg : String) :
    SameTables w { w with db := quarantineEvent ev msg w.db } := by
  obtain ⟨_,he⟩ := quarantineEvent_eq ev msg w.db
  rw [he]
  exact ⟨rfl,rfl,rfl⟩

variable (hinv : ∀ {w}, Synced ix chain origin w → inv w)

include hinv in
lemma following_quarantine (h : Synced ix chain origin w) (evs) :
    (following chain inv).Ensures (fun _ w' => SameTables w w')
    (Process.forEach evs (quarantineProgram ix)) w := by
  refine alone_forEach (fun _ w' => SameTables w w') (fun ev _ w1 hw1 => ?_) (SameTables.refl w)
  rw [quarantineProgram]
  cases parseEvent ix.rt ev with
  | ok => exact alone_pure hw1
  | error msg =>
    refine alone_modify fun w2 hw2 => ?_
    cases hw2
    have hs := hw1.trans (sameTables_quarantine ev msg)
    exact ⟨hinv (h.same hs),hs⟩

structure Scanned (chain : Chain ScVal ix.contractIds) (origin startLedger endLedger : Nat)
    (w w' : World) : Prop where
  synced : Synced ix chain origin w'
  checkpoints : w'.db.checkpoints = w.db.checkpoints
  cursor : w'.cursor = w.cursor
  holds : HoldsRange ix chain startLedger endLedger w'.db

variable {lo hi : Nat}

lemma Synced.store (h : Synced ix chain origin w) (hsp : chain.Separate ix)
    {aborted ins} (hk : storeStep ix lo hi aborted
    (parsedEvents ix.rt (chain.between lo hi)) w = .ok (ins,w')) :
    Scanned chain origin lo hi w w' := by
  simp only [storeStep,bind_eq_ok,pure_eq_ok,Prod.mk.injEq] at hk
  obtain ⟨⟨_,db⟩,hst,-,rfl⟩ := hk
  obtain ⟨ents,he,hrs,hp,hstt⟩ := storeWithRetries_eq_ok hst
  have hcr : ({ w with db }.hand lo hi).cursor = w.cursor := by
    show ((db.indexerState.map (·.lastFinalizedLedger)).getD 0) = w.cursor
    rw [hstt]
    rfl
  have ht : ∀ ent ∈ ents, chain.HasRow ix ent.row := by
    intro ent ht
    have hm : ent.event ∈ parsedEvents ix.rt (chain.between lo hi) :=
      he ▸ mem_map_of_mem ht
    exact ⟨ent.event,(Chain.mem_parsedEvents_between.mp hm).2,ent.stored⟩
  have hb : w.db.contractEvents.rows ⊆ db.contractEvents.rows := by
    rw [hrs]
    exact Table.subset_insertAll _ ents
  have hd : ∀ row ∈ db.contractEvents.rows, chain.HasRow ix row := by
    rw [hrs,Table.rows_insertAll,forall_mem_append]
    refine ⟨h.sound,fun row hr => ?_⟩
    obtain ⟨ent,ha,rfl⟩ := mem_map.mp hr
    exact ht ent ((Table.admitted_sublist _ _ ents).subset ha)
  have ho : HoldsRange ix chain lo hi db := by
    intro ev hs hl hh
    have hm := Chain.mem_parsedEvents_between.mpr ⟨⟨hl,hh⟩,hs⟩
    rw [← he] at hm
    obtain ⟨ent,hin,rfl⟩ := mem_map.mp hm
    -- its row was inserted, or conflicted with a row of the chain, which then is the same
    have hn : ¬ (w.db.contractEvents.insertAll (ents.map Entry.row)).Admits ent.row :=
      Table.not_admits_insertAll conflicts_refl _ hin
    rw [← hrs,Table.Admits] at hn
    push Not at hn
    obtain ⟨row,hr,hn⟩ := hn
    obtain rfl := hsp row ent.row (hd row hr) (ht ent hin) hn
    exact ⟨ent.row,hr,ent.stored⟩
  have hy : Synced ix chain origin ({ w with db }.hand lo hi) := by
    refine ⟨?_,?_,?_,?_,?_,?_,hd⟩
    · exact hp ▸ h.verified
    · exact hp ▸ h.digest
    · rw [hcr]
      exact hp ▸ h.start
    · exact hp ▸ h.linked
    · rw [hcr]
      exact hp ▸ h.cursor
    · intro c hc ev hs hl hh
      obtain ⟨row,hr,hq⟩ := h.holds c (hp ▸ hc) ev hs hl hh
      exact ⟨row,hb hr,hq⟩
  exact ⟨hy,hp,hcr,ho⟩

lemma Synced.scanned_of_none (h : Synced ix chain origin w)
    (hn : parsedEvents ix.rt (chain.between lo hi) = [])
    (hs : SameTables w w') : Scanned chain origin lo hi w w' := by
  refine ⟨h.same hs,hs.checkpoints,hs.cursor,fun ev hp hl hh => ?_⟩
  have hm := Chain.mem_parsedEvents_between.mpr ⟨⟨hl,hh⟩,hp⟩
  rw [hn] at hm
  exact absurd hm not_mem_nil

include hinv in
lemma following_store (hp : chain.Separate ix) (h : Synced ix chain origin w) (lo hi) :
    (following chain inv).Ensures (fun _ w' => Scanned chain origin lo hi w w')
    (storeProgram ix lo hi (chain.between lo hi)) w := by
  refine ensures_bind ((following_quarantine hinv h _).mono fun _ w1 hw1 => ?_)
  have hy := h.same hw1
  split
  · next hn =>
    refine alone_modify fun w2 hw2 => ?_
    cases hw2
    have hs := h.scanned_of_none hn (hw1.trans (sameTables_hand lo hi))
    exact ⟨hinv hs.synced,hs⟩
  · refine ensures_bind (alone_query fun ans _ => ?_)
    refine ensures_bind (alone_step fun ins w2 hw2 => ?_)
    obtain ⟨hs2,hc,hr,hh⟩ := hy.store hp hw2
    refine ⟨hinv hs2,?_⟩
    rw [announceProgram]
    split
    · exact alone_pure ⟨hs2,hc.trans hw1.checkpoints,hr.trans hw1.cursor,hh⟩
    · trivial

include hinv in
lemma following_processChunk (hp : chain.Separate ix) (h : Synced ix chain origin w)
    (hr : lo ≤ hi) : (following chain inv).Ensures
    (fun res w' => Scanned chain origin lo hi w w' ∧
    res.lastProcessedLedger = hi ∧
    digestEvents ix (chain.between lo hi) = .ok res.rangeDigest)
    (processChunk ix lo hi) w := by
  rw [processChunk,if_neg (not_lt.mpr hr)]
  refine ensures_bind ((following_fetch _ _).mono fun evs w1 hw1 => ?_)
  obtain ⟨rfl,rfl⟩ := hw1
  split
  · next hn =>
    refine ensures_bind (alone_modify fun w2 hw2 => ?_)
    cases hw2
    have hs : Scanned chain origin lo hi w1 (w1.hand lo hi) :=
      h.scanned_of_none (by rw [hn]; rfl) (sameTables_hand lo hi)
    refine ⟨hinv hs.synced,?_⟩
    refine ensures_bind ((following_digest _).mono fun dig w3 hw3 => ?_)
    obtain ⟨hd,rfl⟩ := hw3
    exact alone_pure ⟨hs,rfl,hn ▸ hd⟩
  · refine ensures_bind ((following_store hinv hp h _ _).mono fun _ w2 hs => ?_)
    refine ensures_bind ((following_digest _).mono fun dig w3 hw3 => ?_)
    obtain ⟨hd,rfl⟩ := hw3
    refine alone_pure ⟨hs,max_eq_right ?_,hd⟩
    exact foldl_max_le hr fun ev he => (Timeline.mem_between.mp he).1.2

end

section
variable {ScVal : Type} {ix : Indexer ScVal} {chain : Chain ScVal ix.contractIds} {origin : Nat}
  {inv : World → Prop} {w w' : World}

lemma following_getLastIndexedLedger (hs : ∀ {w'}, SameTables w w' → inv w') :
    (following chain inv).Ensures (fun pos w' => SameTables w w' ∧ pos = w'.cursor)
    (getLastIndexedLedger : Program ScVal Nat) w := by
  refine ensures_bind (alone_get (hs (SameTables.refl w)) ?_)
  cases ht : w.db.indexerState with
  | some =>
    refine alone_pure ⟨SameTables.refl w,?_⟩
    rw [World.cursor,ht]
    rfl
  | none =>
    refine ensures_bind (alone_modify fun w1 hw1 => ?_)
    obtain ⟨hz,rfl⟩ := insertIndexerState_eq_ok hw1
    have hs1 : SameTables w (w.setIndexerState ⟨0,0⟩) := ⟨rfl,rfl,hz.symm⟩
    exact ⟨hs hs1,alone_pure ⟨hs1,rfl⟩⟩

/-- A poll gets past the check of the latest range only if that has the same digest as before. -/
lemma following_detect (hw : inv w)
    (ht : ∀ c ∈ latestVerified w.db.checkpoints, c.rangeDigest ≠ none) :
    (following chain inv).Ensures (fun _ w' => w' = w ∧ ¬ Changed ix chain w.db)
    (detectAndRollbackReorg ix) w := by
  refine ensures_bind (ensures_bind (alone_query fun ans _ => ?_))
  refine alone_get hw ?_
  cases hf : (latestVerified w.db.checkpoints)[ans.row % (latestVerified
      w.db.checkpoints).length]? with
  | none =>
    refine alone_pure ⟨rfl,fun hg => ?_⟩
    rw [getElem?_eq_none_iff] at hf
    exact absurd hf (not_le.mpr (Nat.mod_lt _ (length_pos_iff.mpr hg.recorded)))
  | some c =>
    have hc := mem_of_getElem? hf
    refine ensures_bind ((following_fetch _ _).mono fun evs w1 hw1 => ?_)
    obtain ⟨rfl,rfl⟩ := hw1
    refine ensures_bind ((following_digest _).mono fun dig w2 hw2 => ?_)
    obtain ⟨hd,rfl⟩ := hw2
    cases hrn : c.rangeDigest with
    | none => exact absurd hrn (ht c hc)
    | some sto =>
      simp only
      split
      · next he =>
        exact alone_pure ⟨rfl,fun hg => hg.digest c hc sto hrn (he ▸ hd)⟩
      · exact ensures_bind (alone_modify fun w3 hw3 => absurd hw3 rollbackStep_ne_ok)

variable (hinv : ∀ {w}, Synced ix chain origin w → inv w)

include hinv in
lemma following_backfill (h : Synced ix chain origin w) (finalizedTip) :
    (following chain inv).Ensures (fun _ w' => w' = w) (backfillMissingRanges ix finalizedTip)
    w := by
  rw [backfillMissingRanges]
  split
  · exact alone_pure rfl
  · refine ensures_bind (alone_get (hinv h) ?_)
    have hn : (w.db.checkpoints.filter fun c => c.status = .suspect) = [] := by
      refine filter_eq_nil_iff.mpr fun c hc => ?_
      rw [h.verified c hc]
      decide
    rw [hn]
    exact alone_pure rfl

lemma Synced.cursor_le_lastRangeEnd (h : Synced ix chain origin w) {previous}
    (hp : lastRangeEnd w.db.checkpoints = some previous) : w.cursor ≤ previous := by
  obtain ⟨hm,hx⟩ := max?_eq_some_iff.mp hp
  rcases h.cursor with he | ⟨c,hc,he⟩
  · obtain ⟨c,hc,rfl⟩ := mem_map.mp hm
    have := (h.start c hc).1
    have := c.range_check
    omega
  · exact he ▸ hx _ (mem_map_of_mem hc)

variable {rangeEnd : Nat}

lemma Synced.record (h : Synced ix chain origin w) {dig}
    (hh : HoldsRange ix chain (w.cursor + 1) rangeEnd w.db)
    (hd : digestEvents ix (chain.between (w.cursor + 1) rangeEnd) = .ok dig)
    (ho : insertCheckpoint (w.cursor + 1) rangeEnd .verified (some dig) w = .ok w') :
    Synced ix chain origin w' ∧ w'.cursor ≤ rangeEnd ∧
    ∃ c ∈ w'.db.checkpoints, c.rangeEnd = rangeEnd := by
  obtain ⟨hn,rfl⟩ := insertCheckpoint_eq_ok ho
  let new : Checkpoint := ⟨w.cursor + 1,rangeEnd,.verified,some dig,hn⟩
  have hw : new ∈ w.db.checkpoints ++ [new] := mem_append_right _ (mem_singleton_self _)
  have hrc : ∀ ledger, Reaches origin w.db.checkpoints ledger →
      Reaches origin (w.db.checkpoints ++ [new]) ledger := by
    rintro ledger (he | ⟨c,hc,he⟩)
    · exact .inl he
    · exact .inr ⟨c,mem_append_left _ hc,he⟩
  have hr := h.origin_le
  refine ⟨⟨?_,?_,?_,?_,hrc _ h.cursor,?_,h.sound⟩,(Nat.le_succ _).trans hn,new,hw,rfl⟩
  · exact forall_mem_append.mpr ⟨h.verified,forall_mem_singleton.mpr rfl⟩
  · exact forall_mem_append.mpr ⟨h.digest,forall_mem_singleton.mpr ⟨dig,rfl,hd⟩⟩
  · refine forall_mem_append.mpr ⟨h.start,forall_mem_singleton.mpr ⟨?_,le_rfl⟩⟩
    exact Nat.lt_succ_of_le hr
  · refine forall_mem_append.mpr ⟨fun c hc => ?_,forall_mem_singleton.mpr ?_⟩
    · obtain ⟨prev,hp,hre⟩ := h.linked c hc
      exact ⟨prev,hp,hrc prev hre⟩
    · exact ⟨w.cursor,rfl,hrc _ h.cursor⟩
  · exact forall_mem_append.mpr ⟨h.holds,forall_mem_singleton.mpr hh⟩

include hinv in
lemma following_recordCheckpoint (h : Synced ix chain origin w) {dig}
    (hh : HoldsRange ix chain (w.cursor + 1) rangeEnd w.db)
    (hd : digestEvents ix (chain.between (w.cursor + 1) rangeEnd) = .ok dig) :
    (following chain inv).Ensures (fun _ w' => Synced ix chain origin w' ∧ w'.cursor ≤ rangeEnd ∧
    ∃ c ∈ w'.db.checkpoints, c.rangeEnd = rangeEnd)
    (recordCheckpoint (w.cursor + 1) rangeEnd dig : Program ScVal Unit) w := by
  refine ensures_bind (alone_get (hinv h) ?_)
  have hf : (following chain inv).Ensures (fun _ w' => w' = w)
      (flagGap (w.cursor + 1) (lastRangeEnd w.db.checkpoints) : Program ScVal Unit) w := by
    cases hp : lastRangeEnd w.db.checkpoints with
    | none => exact alone_pure rfl
    | some =>
      have hl := h.cursor_le_lastRangeEnd hp
      rw [flagGap,if_neg (by omega)]
      exact alone_pure rfl
  refine ensures_bind (hf.mono fun _ w1 hw1 => ?_)
  subst hw1
  refine alone_modify fun w2 hw2 => ?_
  have hr := h.record hh hd hw2
  exact ⟨hinv hr.1,hr⟩

lemma Synced.advance (h : Synced ix chain origin w) (hl : w.cursor ≤ rangeEnd)
    (he : ∃ c ∈ w.db.checkpoints, c.rangeEnd = rangeEnd)
    (hv : w'.db.contractEvents = w.db.contractEvents) (hp : w'.db.checkpoints = w.db.checkpoints)
    (hr : w'.cursor = rangeEnd) : Synced ix chain origin w' := by
  refine ⟨?_,?_,?_,?_,?_,?_,?_⟩
  · exact hp ▸ h.verified
  · exact hp ▸ h.digest
  · rw [hp,hr]
    exact fun c hc => ⟨(h.start c hc).1,(h.start c hc).2.trans (Nat.succ_le_succ hl)⟩
  · exact hp ▸ h.linked
  · rw [hp,hr]
    exact .inr he
  · simp only [HoldsRange,hp,hv]
    exact h.holds
  · exact hv ▸ h.sound

include hinv

lemma following_updateLastIndexedLedger (h : Synced ix chain origin w) (hl : w.cursor ≤ rangeEnd)
    (he : ∃ c ∈ w.db.checkpoints, c.rangeEnd = rangeEnd) :
    (following chain inv).Ensures (fun _ w' => Synced ix chain origin w')
    (updateLastIndexedLedger rangeEnd : Program ScVal Unit) w := by
  cases ht : w.db.indexerState with
  | some state =>
    refine ensures_bind (alone_step fun upd w1 hw1 => ?_)
    rw [ht] at hw1
    cases hw1
    have hc : (w.setIndexerState (state.raise rangeEnd)).cursor = rangeEnd := by
      have hs : w.cursor = state.lastFinalizedLedger := by
        rw [World.cursor,ht]
        rfl
      exact max_eq_right (hs ▸ hl)
    have hy : Synced ix chain origin (w.setIndexerState (state.raise rangeEnd)) :=
      h.advance hl he rfl rfl hc
    exact ⟨hinv hy,alone_pure hy⟩
  | none =>
    refine ensures_bind (alone_step fun upd w1 hw1 => ?_)
    rw [ht] at hw1
    cases hw1
    refine ⟨hinv h,alone_modify fun w2 hw2 => ?_⟩
    obtain ⟨-,rfl⟩ := insertIndexerState_eq_ok hw2
    have hy : Synced ix chain origin (w.setIndexerState ⟨rangeEnd,rangeEnd⟩) :=
      h.advance hl he rfl rfl rfl
    exact ⟨hinv hy,hy⟩

lemma following_record (h : Synced ix chain origin w) {r : ProcessChunkResult}
    (hh : HoldsRange ix chain (w.cursor + 1) r.lastProcessedLedger w.db)
    (hd : digestEvents ix (chain.between (w.cursor + 1) r.lastProcessedLedger) =
      .ok r.rangeDigest) :
    (following chain inv).Ensures (fun _ w' => Synced ix chain origin w')
      (do recordCheckpoint (w.cursor + 1) r.lastProcessedLedger r.rangeDigest
          updateLastIndexedLedger r.lastProcessedLedger : Program ScVal Unit) w := by
  refine ensures_bind ((following_recordCheckpoint hinv h hh hd).mono fun _ w1 hw1 => ?_)
  obtain ⟨hs,hl,he⟩ := hw1
  exact following_updateLastIndexedLedger hinv hs hl he

lemma following_indexNextBatch (hs : chain.Separate ix) (h : Synced ix chain origin w)
    (finalizedLedger) : (following chain inv).Ensures (fun _ w' => Synced ix chain origin w')
    (indexNextBatch ix w.cursor finalizedLedger) w := by
  rw [indexNextBatch]
  by_cases hr : w.cursor + 1 ≤ min (w.cursor + 1 + ix.batchSize - 1) finalizedLedger
  · refine ensures_bind ((following_processChunk hinv hs h hr).mono fun res w1 hw1 => ?_)
    obtain ⟨⟨hy,-,hc,ho⟩,hl,hd⟩ := hw1
    rw [← hl,← hc] at ho hd
    rw [← hc]
    exact following_record hinv hy ho hd
  -- batches of size zero: the empty range is refused when it is recorded
  rw [processChunk,if_pos (not_le.mp hr)]
  refine ensures_bind (ensures_bind ((following_digest _).mono fun dig w1 hw1 => ?_))
  obtain ⟨hd,rfl⟩ := hw1
  have he : chain.between (w1.cursor + 1) w1.cursor = [] :=
    Timeline.between_eq_nil (Nat.lt_succ_self _)
  refine alone_pure (following_record hinv h ?_ ?_)
  · exact fun ev _ hlo hh => absurd (hlo.trans hh) (Nat.not_succ_le_self _)
  · show digestEvents ix (chain.between (w1.cursor + 1) w1.cursor) = _
    rw [he]
    exact hd

lemma following_pollOnce (hs : ∀ {w w'}, inv w → SameTables w w' → inv w')
    (hd : ∀ {w}, inv w → (following chain inv).Ensures
    (fun _ w' => Synced ix chain origin w') (detectAndRollbackReorg ix) w)
    (hp : chain.Separate ix) (h : inv w) :
    (following chain inv).Ensures (fun _ w' => inv w') (pollOnce ix) w := by
  refine ensures_bind ((following_getLastIndexedLedger (hs h)).mono fun _ w1 hw1 => ?_)
  have hi1 := hs h hw1.1
  refine ensures_bind (alone_query fun ans _ => ?_)
  split
  · exact alone_pure hi1
  · refine ensures_bind ((hd hi1).mono fun _ w2 hw2 => ?_)
    refine ensures_bind ((following_getLastIndexedLedger
      fun hs => hinv (hw2.same hs)).mono fun pos w3 hw3 => ?_)
    obtain ⟨hs3,rfl⟩ := hw3
    have hy := hw2.same hs3
    refine ensures_bind ((following_backfill hinv hy _).mono fun _ w4 hw4 => ?_)
    subst hw4
    split
    · exact alone_pure (hinv hy)
    · exact (following_indexNextBatch hinv hp hy _).mono fun _ _ => hinv

end

section
variable {ScVal : Type} {ix : Indexer ScVal} {origin : Nat}

def Chain.Follows (chain : Chain ScVal ix.contractIds)
    (moves : List (Move (Answer ScVal) IndexerState))
    (c : Config DbError Request (Answer ScVal) World Unit) : Prop :=
  (pollSystem ix).Legal (following chain fun _ => True) moves c

variable {moves : List (Move (Answer ScVal) IndexerState)} {chain : Chain ScVal ix.contractIds}

lemma follows_run (inv) {w}
    (hp : ∀ {w}, inv w → (following chain inv).Ensures (fun _ w' => inv w') (pollOnce ix) w)
    (h : inv w) (hf : chain.Follows moves (pollOnce ix,w)) :
    inv ((pollSystem ix).run moves (pollOnce ix,w)).2 :=
  (System.invariant_run (fun _ => hp) (fun _ _ hinv _ => hp hinv) (System.Legal.inv hf) h (hp h)).1

lemma synced_run (hp : chain.Separate ix) {w} (h : Synced ix chain origin w)
    (hf : chain.Follows moves (pollOnce ix,w)) :
    Synced ix chain origin ((pollSystem ix).run moves (pollOnce ix,w)).2 := by
  refine follows_run (Synced ix chain origin) (fun {w} hw => ?_) h hf
  refine following_pollOnce id (fun h hs => h.same hs) (fun {w} hw => ?_) hp hw
  refine (following_detect hw hw.rangeDigest_ne_none).mono fun _ w' hw' => ?_
  rw [hw'.1]
  exact hw

lemma Changed.same {w w' : World} (h : Changed ix chain w.db) (hs : SameTables w w') :
    Changed ix chain w'.db := by
  obtain ⟨hn,hd⟩ := h
  rw [← hs.checkpoints] at hn hd
  exact ⟨hn,hd⟩

/-- Where the latest range has changed, no poll gets past its check. -/
lemma changed_run {A B : Chain ScVal ix.contractIds} {w0} (h : Synced ix A origin w0)
    (hg : Changed ix B w0.db) (hf : B.Follows moves (pollOnce ix,w0)) :
    SameTables w0 ((pollSystem ix).run moves (pollOnce ix,w0)).2 := by
  refine follows_run (SameTables w0) (fun {w} hw => ?_) (SameTables.refl w0) hf
  refine ensures_bind ((following_getLastIndexedLedger hw.trans).mono fun _ w1 hw1 => ?_)
  have hs := hw.trans hw1.1
  refine ensures_bind (alone_query fun ans _ => ?_)
  split
  · exact alone_pure hs
  · refine ensures_bind ((following_detect hs (h.same hs).rangeDigest_ne_none).mono
      fun _ w2 hw2 => ?_)
    exact absurd (hg.same hs) hw2.2

/-- An indexer that starts empty polls an RPC that follows one chain and then another one, and no two
rows of one chain conflict. **If the chains differ only after what is recorded**, then
`contract_events` always has exactly the rows of the parsed events of the new chain up to the
position; if the latest range has changed, then nothing is ever written again. -/
theorem reorg_converges (ix : Indexer ScVal) (A B : Chain ScVal ix.contractIds)
    (start switched final : World) (before after : List (Move (Answer ScVal) IndexerState))
    (hrows : start.db.contractEvents.rows = []) (hcheckpoints : start.db.checkpoints = [])
    (hA : A.Separate ix) (hB : B.Separate ix)
    (hswitched : switched = ((pollSystem ix).run before (pollOnce ix, start)).2)
    (hbefore : A.Follows before (pollOnce ix, start))
    (hfinal : final = ((pollSystem ix).run after (pollOnce ix, switched)).2)
    (hafter : B.Follows after (pollOnce ix, switched)) :
    (Settled A B switched.db → Mirrors ix B start.cursor final.cursor final.db) ∧
      (Changed ix B switched.db → SameTables switched final) := by
  have ht : Synced ix A start.cursor start := synced_of_empty ix A hrows hcheckpoints
  have hy : Synced ix A start.cursor switched := hswitched ▸ synced_run hA ht hbefore
  refine ⟨fun hs => ?_,fun hg => hfinal ▸ changed_run hy hg hafter⟩
  have hf : Synced ix B start.cursor final := hfinal ▸ synced_run hB (hy.switch hs) hafter
  exact hf.mirrors

end

section
variable {ScVal : Type} {ix : Indexer ScVal} (chain : Chain ScVal ix.contractIds) (tip : Nat)

def Chain.reply : Request → Answer ScVal
  | .latestLedger => { latest := some tip }
  | .events startLedger endLedger => { pages := [⟨chain.between startLedger endLedger,none⟩] }
  | _ => {}

def Chain.served (n : Nat) (c : Config DbError Request (Answer ScVal) World Unit) :
    List (Move (Answer ScVal) IndexerState) :=
  (pollSystem ix).scripted (chain.reply tip) n c

variable {chain tip}

lemma Chain.answers_reply (req) : chain.Answers req (chain.reply tip req) := by
  cases req with
  | events lo hi =>
    refine ⟨hi,le_rfl,[],(append_nil _).symm,fun ev he => ?_⟩
    exact absurd he not_mem_nil
  | latestLedger => trivial
  | firstRow => trivial
  | aborted => trivial

lemma Chain.follows_served (n c) : chain.Follows (chain.served tip n c) c :=
  System.legal_scripted (fun _ req => Chain.answers_reply req) n c

end

def plainDigest (events : List CanonicalEvent) : String :=
  match events.map fun event => (event.id,event.ledger) with
  | [] => "4f53cda18c2baa0c0354bb5f9a3ecbe5ed12ab4d8e11ba873c2f11161202b945"
  | [("a",5)] => "f6ed790c10d79108578dbf57c8fd19129e8ed749dee82db656e7a9901d2e5779"
  | [("b",5)] => "0f98fa8a8c874ba123513ac7a4b8ea1ecd64f9218993cffa2fac5c844e13e1e8"
  | [("a",15)] => "4a9bb11f0d90499d0de4e48a79d67179f7ec30043c7527fb8a7574739c8d1995"
  | _ => "89d28c0e96534694de0341bd2bb0d376409ac92299d882143a5f8270482ba3b7"

def plainIndexer : Indexer PlainVal where
  rt := plainRuntime
  pg := plainPostgres
  scores := defaultScoreConfig
  contractIds := [zeroContract]
  batchSize := 10
  finalityDepth := 0
  localeLe a b := decide (a ≤ b)
  sha256 := plainDigest

/-- A chain with repayments of one loan, each with its id and its ledger. -/
def repaidChain (repaid : List (String × Nat)) : Chain PlainVal plainIndexer.contractIds where
  eventsAt l := (repaid.filter (·.2 = l)).map fun r => repaidEvent r.1 r.2 1
  time_eq l event hevent := by
    obtain ⟨r,hr,rfl⟩ := List.mem_map.mp hevent
    exact of_decide_eq_true (List.mem_filter.mp hr).2
  contract_mem l event hevent := by
    obtain ⟨r,-,rfl⟩ := List.mem_map.mp hevent
    exact List.mem_singleton_self _

lemma parse_repaid (id l) :
    parseEvent plainRuntime (repaidEvent id l 1) = .ok (some (zeroRepaid id l)) := rfl

lemma hasRow_repaidChain {repaid row} (h : (repaidChain repaid).HasRow plainIndexer row) :
    ∃ r ∈ repaid, eventRow plainPostgres (zeroRepaid r.1 r.2) = .ok row := by
  obtain ⟨event,⟨raw,hw,hp⟩,hr⟩ := h
  obtain ⟨r,hm,rfl⟩ := mem_map.mp hw
  cases (parse_repaid r.1 r.2).symm.trans hp
  exact ⟨r,(mem_filter.mp hm).1,hr⟩

lemma eventRow_repaid {r : String × Nat} {row} (hf : FitsColumn 255 r.1)
    (h : eventRow plainPostgres (zeroRepaid r.1 r.2) = .ok row) :
    row.eventId.val = r.1 ∧ row.ledger = r.2 ∧ row.eventType = .LoanRepaid := by
  obtain ⟨hi,ht,-,hl,-⟩ := eventRow_eq_ok h
  exact ⟨varchar_val hi hf,hl,ht⟩

lemma repaidChain_separate {repaid} (hf : ∀ r ∈ repaid, FitsColumn 255 r.1)
    (hi : ∀ r ∈ repaid, ∀ r' ∈ repaid, r.1 = r'.1 ∨ r.2 = r'.2 → r = r') :
    (repaidChain repaid).Separate plainIndexer := by
  intro row row' h h' hc
  obtain ⟨r,hr,he⟩ := hasRow_repaidChain h
  obtain ⟨r',hr',he'⟩ := hasRow_repaidChain h'
  obtain ⟨hv,hl,ht⟩ := eventRow_repaid (hf r hr) he
  obtain ⟨hv',hl',-⟩ := eventRow_repaid (hf r' hr') he'
  have heq : r = r' := by
    refine hi r hr r' hr' ?_
    rcases hc with hc | hc | hc
    · exact .inl (by rw [← hv,← hv',hc])
    · exact .inr (by rw [← hl,← hl',hc.2.2.2])
    · rw [ht] at hc
      rcases hc.2.2.2 with hc | hc <;> cases hc
  subst heq
  exact Except.ok.inj (he.symm.trans he')

def freshWorld : World := ⟨emptyDatabase fun _ => none,[]⟩

def indexedTwenty (chain : Chain PlainVal plainIndexer.contractIds) : World :=
  ((pollSystem plainIndexer).run
    (chain.served 20 30 (pollOnce plainIndexer,freshWorld)) (pollOnce plainIndexer,freshWorld)).2

def afterSwitch (old new : Chain PlainVal plainIndexer.contractIds) : World :=
  ((pollSystem plainIndexer).run
    (new.served 30 30 (pollOnce plainIndexer,indexedTwenty old))
    (pollOnce plainIndexer,indexedTwenty old)).2

/-- Three chains with a repayment in ledger 15: the first has one more in ledger 25 that the second
has under another id, the third has another one in ledger 15. -/
def oldChain : Chain PlainVal plainIndexer.contractIds := repaidChain [("a",15),("b",25)]

def newChain : Chain PlainVal plainIndexer.contractIds := repaidChain [("a",15),("c",25)]

def otherChain : Chain PlainVal plainIndexer.contractIds := repaidChain [("d",15)]

lemma indexedTwenty_old : latestVerified (indexedTwenty oldChain).db.checkpoints ≠ [] ∧
    (∀ c ∈ latestVerified (indexedTwenty oldChain).db.checkpoints,
    c.rangeStart = 11 ∧ c.rangeEnd = 20 ∧ c.rangeDigest =
    some "4a9bb11f0d90499d0de4e48a79d67179f7ec30043c7527fb8a7574739c8d1995") ∧
    (∀ row ∈ (indexedTwenty oldChain).db.contractEvents.rows,
    ∃ c ∈ latestVerified (indexedTwenty oldChain).db.checkpoints, row.ledger ≤ c.rangeEnd) ∧
    (afterSwitch oldChain newChain).cursor = 30 ∧
    (afterSwitch oldChain newChain).db.contractEvents.rows.map
    (fun row => (row.eventId.val,row.ledger)) = [("a",15),("c",25)] := by
  decide +kernel

lemma settled_new : Settled oldChain newChain (indexedTwenty oldChain).db := by
  obtain ⟨-,he,hs,-,-⟩ := indexedTwenty_old
  refine ⟨fun c hc ledger hl => ?_,hs⟩
  have hn : (25 : Nat) ≠ ledger := by
    have := (he c hc).2.1
    omega
  simp [oldChain,newChain,repaidChain,List.filter_cons,hn]

lemma changed_other : Changed plainIndexer otherChain (indexedTwenty oldChain).db := by
  obtain ⟨hn,he,-,-,-⟩ := indexedTwenty_old
  refine ⟨hn,fun c hc digest hd ho => ?_⟩
  obtain ⟨hs,hl,hg⟩ := he c hc
  cases hg.symm.trans hd
  have hb : digestEvents plainIndexer (otherChain.between 11 20) =
      .ok "89d28c0e96534694de0341bd2bb0d376409ac92299d882143a5f8270482ba3b7" := rfl
  rw [hs,hl,hb] at ho
  exact absurd (Except.ok.inj ho) (by decide)

theorem reorg_converges_repaid : Settled oldChain newChain (indexedTwenty oldChain).db ∧
    (afterSwitch oldChain newChain).cursor = 30 ∧
    (afterSwitch oldChain newChain).db.contractEvents.rows.map
    (fun row => (row.eventId.val,row.ledger)) = [("a",15),("c",25)] ∧
    Mirrors plainIndexer newChain 0 30 (afterSwitch oldChain newChain).db ∧
    Changed plainIndexer otherChain (indexedTwenty oldChain).db ∧
    SameTables (indexedTwenty oldChain) (afterSwitch oldChain otherChain) := by
  obtain ⟨-,-,-,hc,hv⟩ := indexedTwenty_old
  have hA : oldChain.Separate plainIndexer := repaidChain_separate (by decide) (by decide)
  have hm := (reorg_converges plainIndexer oldChain newChain freshWorld (indexedTwenty oldChain)
    (afterSwitch oldChain newChain) (oldChain.served 20 30 (pollOnce plainIndexer,freshWorld))
    (newChain.served 30 30 (pollOnce plainIndexer,indexedTwenty oldChain)) rfl rfl hA
    (repaidChain_separate (by decide) (by decide)) (by rw [indexedTwenty])
    (Chain.follows_served 30 _) (by rw [afterSwitch]) (Chain.follows_served 30 _)).1 settled_new
  have hs := (reorg_converges plainIndexer oldChain otherChain freshWorld (indexedTwenty oldChain)
    (afterSwitch oldChain otherChain) (oldChain.served 20 30 (pollOnce plainIndexer,freshWorld))
    (otherChain.served 30 30 (pollOnce plainIndexer,indexedTwenty oldChain)) rfl rfl hA
    (repaidChain_separate (by decide) (by decide)) (by rw [indexedTwenty])
    (Chain.follows_served 30 _) (by rw [afterSwitch]) (Chain.follows_served 30 _)).2 changed_other
  rw [hc] at hm
  exact ⟨settled_new,hc,hv,hm,changed_other,hs⟩

def forkA : Chain PlainVal plainIndexer.contractIds := repaidChain [("a",5)]

def forkB : Chain PlainVal plainIndexer.contractIds := repaidChain [("b",5)]

lemma fork_at_five : (∀ c ∈ (indexedTwenty forkA).db.checkpoints, c.rangeEnd < 30) ∧
    (afterSwitch forkA forkB).cursor = 30 ∧
    (afterSwitch forkA forkB).db.contractEvents.rows.map
    (fun row => (row.eventId.val,row.ledger)) = [("a",5)] := by
  decide +kernel

/-- The chains fork before the latest range, and an event that the new chain does not have stays. -/
theorem reorg_misses_fork : (∀ ledger < 5, forkA.eventsAt ledger = forkB.eventsAt ledger) ∧
    forkA.Follows (forkA.served 20 30 (pollOnce plainIndexer,freshWorld))
    (pollOnce plainIndexer,freshWorld) ∧
    forkB.Follows (forkB.served 30 30 (pollOnce plainIndexer,indexedTwenty forkA))
    (pollOnce plainIndexer,indexedTwenty forkA) ∧
    (∀ c ∈ (indexedTwenty forkA).db.checkpoints, c.rangeEnd < 30) ∧
    (afterSwitch forkA forkB).cursor = 30 ∧
    (afterSwitch forkA forkB).db.contractEvents.rows.map
    (fun row => (row.eventId.val,row.ledger)) = [("a",5)] ∧
    ¬ Mirrors plainIndexer forkB 0 30 (afterSwitch forkA forkB).db := by
  obtain ⟨he,hc,hs⟩ := fork_at_five
  refine ⟨fun ledger hlt => ?_,Chain.follows_served 30 _,Chain.follows_served 30 _,he,
    hc,hs,fun hr => ?_⟩
  · simp [forkA,forkB,repaidChain,List.filter_cons,hlt.ne']
  · have hm : ("a",5) ∈ [("a",5)] := mem_singleton_self _
    rw [← hs] at hm
    obtain ⟨row,hw,heq⟩ := mem_map.mp hm
    obtain ⟨hid,_⟩ := Prod.mk.inj heq
    obtain ⟨r,hn,hp⟩ := hasRow_repaidChain (hr.sound row hw (by omega) (by omega))
    rw [mem_singleton] at hn
    subst hn
    have ho := (eventRow_repaid (by decide) hp).1
    rw [hid] at ho
    exact absurd ho (by decide)

end DukaPay.Backend
