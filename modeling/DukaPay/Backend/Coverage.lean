import DukaPay.Backend.Poll

/-! Between the lowest and the highest recorded range every ledger is in a suspect range or was
handed to a pass of `storeEvents` since the last rollback that covered it. -/
namespace DukaPay.Backend
open Contractlib Setting List Option

def HandedSince (trace : List Trace) (ledger : Nat) : Prop :=
  ∃ before after startLedger endLedger, trace = before ++ .handed startLedger endLedger :: after ∧
    startLedger ≤ ledger ∧ ledger ≤ endLedger ∧ ∀ L, .rolledBack L ∈ after → ledger < L

lemma HandedSince.append {trace ledger} (h : HandedSince trace ledger)
    {l} (hl : ∀ L, .rolledBack L ∈ l → ledger < L) : HandedSince (trace ++ l) ledger := by
  obtain ⟨bef,after,lo,hi,rfl,hs,he,ha⟩ := h
  refine ⟨bef,after ++ l,lo,hi,by simp,hs,he,?_⟩
  intro L hL
  rcases mem_append.mp hL with hL | hL
  · exact ha L hL
  · exact hl L hL

lemma handedSince_hand {w : World} {lo hi ledger} (hs : lo ≤ ledger) (he : ledger ≤ hi) :
    HandedSince (w.hand lo hi).trace ledger :=
  ⟨w.trace,[],lo,hi,rfl,hs,he,by simp⟩

def Checkpoint.Contains (c : Checkpoint) (ledger : Nat) : Prop :=
  c.rangeStart ≤ ledger ∧ ledger ≤ c.rangeEnd

def Checkpoint.Apart (c c' : Checkpoint) : Prop :=
  c.status = .suspect ∨ c'.status = .suspect →
    c.rangeEnd < c'.rangeStart ∨ c'.rangeEnd < c.rangeStart

instance : Std.Symm Checkpoint.Apart where
  symm _ _ h hsuspect := (h hsuspect.symm).symm

variable (checkpoints : List Checkpoint)

def Accounted (trace : List Trace) (ledger : Nat) : Prop :=
  (∃ c ∈ checkpoints, c.status = .suspect ∧ c.Contains ledger) ∨ HandedSince trace ledger

def HullAccounted (trace : List Trace) : Prop :=
  ∀ c ∈ checkpoints, ∀ c' ∈ checkpoints, ∀ ledger,
    c.rangeStart ≤ ledger → ledger ≤ c'.rangeEnd → Accounted checkpoints trace ledger

def Within (position : Nat) : Prop :=
  ∀ c ∈ checkpoints, c.rangeStart ≤ position + 1 ∧ (c.status = .suspect → c.rangeEnd ≤ position)

structure Covered (w : World) : Prop where
  within : Within w.db.checkpoints w.cursor
  apart : w.db.checkpoints.Pairwise Checkpoint.Apart
  hull : HullAccounted w.db.checkpoints w.trace

def CursorMoves (w w' : World) : Prop :=
  w'.db.checkpoints = w.db.checkpoints ∧ w'.trace = w.trace ∧ w.cursor ≤ w'.cursor

lemma Within.mono {checkpoints pos position'} (h : Within checkpoints pos)
    (hl : pos ≤ position') : Within checkpoints position' := by
  intro c hc
  obtain ⟨_,he⟩ := h c hc
  exact ⟨by omega,fun hs => (he hs).trans hl⟩

def coverage (ScVal : Type) : Setting Request (Answer ScVal) World where
  inv := Covered
  env := CursorMoves
  answers _ _ _ := True
  env_refl _ := ⟨rfl,rfl,le_rfl⟩
  env_trans h h' := ⟨h'.1.trans h.1,h'.2.1.trans h.2.1,h.2.2.trans h'.2.2⟩
  env_inv := by
    rintro w w' ⟨hcheckpoints,htrace,hcursor⟩ ⟨hwithin,hapart,hhull⟩
    refine ⟨?_,hcheckpoints ▸ hapart,?_⟩
    · rw [hcheckpoints]
      exact hwithin.mono hcursor
    · rw [hcheckpoints,htrace]
      exact hhull

section
variable {w w' : World} {checkpoints : List Checkpoint}

lemma HullAccounted.append {trace l} (h : HullAccounted checkpoints trace)
    (hl : ∀ L, .rolledBack L ∉ l) : HullAccounted checkpoints (trace ++ l) := by
  intro c hc c' hc' lg hs he
  refine (h c hc c' hc' lg hs he).imp_right fun hh => ?_
  exact hh.append fun L hL => absurd hL (hl L)

lemma HullAccounted.insert {trace} {new : Checkpoint} (h : HullAccounted checkpoints trace)
    (hw : ∀ ledger, new.Contains ledger → Accounted (checkpoints ++ [new]) trace ledger)
    (hlo : ∀ c ∈ checkpoints, ∃ c' ∈ checkpoints, c'.rangeStart ≤ new.rangeEnd + 1)
    (hh : ∀ c ∈ checkpoints, ∃ c' ∈ checkpoints, new.rangeStart ≤ c'.rangeEnd + 1) :
    HullAccounted (checkpoints ++ [new]) trace := by
  have ho : ∀ c ∈ checkpoints, ∀ c' ∈ checkpoints, ∀ ledger, c.rangeStart ≤ ledger →
      ledger ≤ c'.rangeEnd → Accounted (checkpoints ++ [new]) trace ledger := by
    intro c hc c' hc' ledger ht he
    refine (h c hc c' hc' ledger ht he).imp_left ?_
    rintro ⟨s,hs,hss⟩
    exact ⟨s,mem_append_left _ hs,hss⟩
  intro c hc c' hc' ledger ht he
  by_cases hn : new.Contains ledger
  · exact hw ledger hn
  simp only [Checkpoint.Contains,not_and_or,not_le] at hn
  rcases mem_append.mp hc with hc | hc <;> rcases mem_append.mp hc' with hc' | hc'
  · exact ho c hc c' hc' ledger ht he
  · rw [mem_singleton.mp hc'] at he
    obtain ⟨d,hd,hl⟩ := hh c hc
    exact ho c hc d hd ledger ht (by omega)
  · rw [mem_singleton.mp hc] at ht
    obtain ⟨d,hd,hl⟩ := hlo c' hc'
    exact ho d hd c' hc' ledger (by omega) he
  · rw [mem_singleton.mp hc] at ht
    rw [mem_singleton.mp hc'] at he
    omega

lemma Covered.map {f : Checkpoint → Checkpoint} (h : Covered w)
    (hin : ∀ c ∈ w.db.checkpoints, c.rangeStart ≤ w.cursor + 1 →
      (c.status = .suspect → c.rangeEnd ≤ w.cursor) →
      (f c).rangeStart ≤ w.cursor + 1 ∧ ((f c).status = .suspect → (f c).rangeEnd ≤ w.cursor))
    (hins : ∀ c ∈ w.db.checkpoints, c.rangeStart ≤ (f c).rangeStart ∧
      (f c).rangeEnd = c.rangeEnd ∧ ((f c).status = .suspect → c.status = .suspect))
    (ha : ∀ c ∈ w.db.checkpoints, c.status = .suspect → ∀ lg, c.Contains lg →
      ((f c).status = .suspect ∧ (f c).Contains lg) ∨ HandedSince w.trace lg) :
    Covered (w.setCheckpoints (w.db.checkpoints.map f)) where
  within := by
    intro c hc
    obtain ⟨c0,hc0,rfl⟩ := mem_map.mp hc
    obtain ⟨ht,he⟩ := h.within c0 hc0
    exact hin c0 hc0 ht he
  apart := by
    rw [checkpoints_setCheckpoints,pairwise_map]
    refine h.apart.imp_of_mem fun {c c'} hc hc' hp hss => ?_
    obtain ⟨ht,he,hkp⟩ := hins c hc
    obtain ⟨_,_,hk'⟩ := hins c' hc'
    have := hp (hss.imp hkp hk')
    omega
  hull := by
    intro c hc c' hc' lg ht he
    obtain ⟨c0,hc0,rfl⟩ := mem_map.mp hc
    obtain ⟨c0',hc0',rfl⟩ := mem_map.mp hc'
    obtain ⟨hl,-,-⟩ := hins c0 hc0
    obtain ⟨-,hq,-⟩ := hins c0' hc0'
    rcases h.hull c0 hc0 c0' hc0' lg (hl.trans ht) (hq ▸ he) with
      ⟨s,hs,hss,hn⟩ | hh
    · refine (ha s hs hss lg hn).imp_left fun hk => ?_
      exact ⟨f s,mem_map_of_mem hs,hk⟩
    · exact .inr hh

lemma covered_of_eq (h : Covered w) (hc : w'.db.checkpoints = w.db.checkpoints)
    (hr : w.cursor ≤ w'.cursor) (ht : w'.trace = w.trace) : Covered w' :=
  (coverage Unit).env_inv ⟨hc,ht,hr⟩ h

end

section

def Grows (w w' : World) : Prop :=
  w'.db.checkpoints = w.db.checkpoints ∧ w.cursor ≤ w'.cursor ∧
    ∃ later, w'.trace = w.trace ++ later ∧ ∀ L, .rolledBack L ∉ later

def HandedRange (startLedger endLedger : Nat) (w : World) : Prop :=
  ∀ ledger, startLedger ≤ ledger → ledger ≤ endLedger → HandedSince w.trace ledger

variable {w w' w'' : World}

lemma Grows.refl (w) : Grows w w := ⟨rfl,le_rfl,[],(append_nil _).symm,by simp⟩

lemma Grows.trans (h : Grows w w') (h' : Grows w' w'') : Grows w w'' := by
  obtain ⟨hc,hr,later,ht,hl⟩ := h
  obtain ⟨hc',hcu',later',ht',hl'⟩ := h'
  refine ⟨hc'.trans hc,hr.trans hcu',later ++ later',?_,?_⟩
  · rw [ht',ht,append_assoc]
  · intro L hL
    rcases mem_append.mp hL with hL | hL
    · exact hl L hL
    · exact hl' L hL

lemma CursorMoves.grows (h : CursorMoves w w') : Grows w w' :=
  ⟨h.1,h.2.2,[],h.2.1.trans (append_nil _).symm,by simp⟩

lemma Covered.grows (h : Covered w) (hg : Grows w w') : Covered w' := by
  obtain ⟨hc,hr,_,ht,hl⟩ := hg
  refine ⟨?_,hc ▸ h.apart,?_⟩
  · rw [hc]
    exact h.within.mono hr
  · rw [hc,ht]
    exact h.hull.append hl

variable {lo hi : Nat}

lemma HandedRange.grows (h : HandedRange lo hi w) (hg : Grows w w') : HandedRange lo hi w' := by
  obtain ⟨-,-,_,ht,hl⟩ := hg
  intro lg hs he
  rw [ht]
  exact (h lg hs he).append fun L hL => absurd hL (hl L)

lemma grows_hand (lo hi) : Grows w (w.hand lo hi) :=
  ⟨rfl,le_rfl,[.handed lo hi],rfl,by simp⟩

lemma handedRange_hand (lo hi) : HandedRange lo hi (w.hand lo hi) :=
  fun _ hs he => handedSince_hand hs he

variable {ScVal : Type} {ix : Indexer ScVal}

lemma storeStep_grows {aborted prs ins}
    (h : storeStep ix lo hi aborted prs w = .ok (ins,w')) :
    Grows w w' ∧ HandedRange lo hi w' := by
  simp only [storeStep,bind_eq_ok,pure_eq_ok,Prod.mk.injEq] at h
  obtain ⟨⟨_,db⟩,hs,-,rfl⟩ := h
  obtain ⟨-,-,-,hc,ht⟩ := storeWithRetries_eq_ok hs
  have hd : Grows w { w with db } :=
    ⟨hc,by rw [World.cursor,World.cursor,ht],[],(append_nil _).symm,by simp⟩
  exact ⟨hd.trans (grows_hand _ _),handedRange_hand _ _⟩

lemma quarantine_grows (ev : SorobanRawEvent ScVal) (msg : String) :
    Grows w { w with db := quarantineEvent ev msg w.db } := by
  obtain ⟨_,he⟩ := quarantineEvent_eq ev msg w.db
  rw [he]
  exact ⟨rfl,le_rfl,[],(append_nil _).symm,by simp⟩

lemma ensures_growing {f : World → Except DbError World} {P : World → Prop}
    (hP : ∀ {w w'}, P w → Grows w w' → P w') (h : Covered w)
    (hf : ∀ {w1 w2}, f w1 = .ok w2 → Grows w1 w2 ∧ P w2) :
    (coverage ScVal).Ensures (fun _ w' => Grows w w' ∧ P w')
    (Process.modify f : Program ScVal Unit) w := by
  refine ensures_modify fun w1 hw1 w2 hw2 => ?_
  obtain ⟨hg,hP2⟩ := hf hw2
  have ha := CursorMoves.grows hw1 |>.trans hg
  refine ⟨h.grows ha,fun w3 hw3 => ?_⟩
  have hl : Grows w2 w3 := CursorMoves.grows hw3
  exact ⟨ha.trans hl,hP hP2 hl⟩

lemma ensures_noteHanded (lo hi) (h : Covered w) :
    (coverage ScVal).Ensures (fun _ w' => Grows w w' ∧ HandedRange lo hi w')
    (noteHanded lo hi : Program ScVal Unit) w := by
  refine ensures_growing HandedRange.grows h fun {w1 w2} hw2 => ?_
  cases hw2
  exact ⟨grows_hand _ _,handedRange_hand _ _⟩

lemma ensures_quarantine (events) (h : Covered w) :
    (coverage ScVal).Ensures (fun _ w' => Grows w w')
    (Process.forEach events (quarantineProgram ix)) w := by
  refine ensures_forEach (fun _ w' => Grows w w')
    (fun _ w1 w2 hw2 hw1 => hw1.trans (CursorMoves.grows hw2)) ?_ (Grows.refl w)
  intro ev rest w1 hw1
  rw [quarantineProgram]
  cases parseEvent ix.rt ev with
  | ok => exact ensures_pure fun w2 hw2 => hw1.trans (CursorMoves.grows hw2)
  | error msg =>
    refine (ensures_growing (P := fun _ => True) (fun _ _ => trivial) (h.grows hw1)
      fun {w2 w3} hw3 => ?_).mono fun _ w2 hw2 => hw1.trans hw2.1
    cases hw3
    exact ⟨quarantine_grows ev msg,trivial⟩

lemma ensures_storeProgram (lo hi events) (h : Covered w) :
    (coverage ScVal).Ensures (fun _ w' => Grows w w' ∧ HandedRange lo hi w')
    (storeProgram ix lo hi events) w := by
  refine ensures_bind ((ensures_quarantine events h).mono fun _ w1 hw1 => ?_)
  split
  · refine (ensures_noteHanded _ _ (h.grows hw1)).mono fun _ w2 hw2 => ?_
    exact ⟨hw1.trans hw2.1,hw2.2⟩
  · refine ensures_bind (ensures_query fun w2 hw2 i _ w3 hw3 => ?_)
    have hg := (hw1.trans (CursorMoves.grows hw2)).trans (CursorMoves.grows hw3)
    refine ensures_bind (ensures_step fun w4 hw4 ins w5 hw5 => ?_)
    obtain ⟨hk,hn⟩ := storeStep_grows hw5
    have ha := (hg.trans (CursorMoves.grows hw4)).trans hk
    refine ⟨h.grows ha,fun w6 hw6 => ?_⟩
    have hl : Grows w5 w6 := CursorMoves.grows hw6
    rw [announceProgram]
    split
    · refine ensures_pure fun w7 hw7 => ?_
      have hm := hl.trans (CursorMoves.grows hw7)
      exact ⟨ha.trans hm,hn.grows hm⟩
    · trivial

end

section
variable {ScVal : Type} {ix : Indexer ScVal} {w : World} {lo hi : Nat}
variable {pages : List (Page ScVal)} {events : List (SorobanRawEvent ScVal)}

lemma mem_collectPages {c} (h : collectPages lo hi c pages = some events) :
    ∀ ev ∈ events, lo ≤ ev.ledger ∧ ev.ledger ≤ hi := by
  induction pages generalizing c events with
  | nil => cases h
  | cons pg pages ih =>
    have hf : ∀ ev ∈ pg.events.filter (fun ev =>
        lo ≤ ev.ledger ∧ ev.ledger ≤ hi),
        lo ≤ ev.ledger ∧ ev.ledger ≤ hi :=
      fun ev he => of_decide_eq_true (mem_filter.mp he).2
    simp only [collectPages] at h
    split at h
    · cases h
      exact hf
    split at h
    · cases h
      exact hf
    · obtain ⟨_,hr,rfl⟩ := map_eq_some_iff.mp h
      exact forall_mem_append.mpr ⟨hf,ih hr⟩

lemma mem_eventsOfPages (h : eventsOfPages lo hi pages = some events) :
    ∀ ev ∈ events, lo ≤ ev.ledger ∧ ev.ledger ≤ hi := by
  obtain ⟨_,hc,rfl⟩ := map_eq_some_iff.mp h
  intro ev he
  exact mem_collectPages hc ev (mem_insertionSort _ |>.mp he)

lemma ensures_fetch (w) : (coverage ScVal).Ensures (fun events w' => CursorMoves w w' ∧
    ∀ ev ∈ events, lo ≤ ev.ledger ∧ ev.ledger ≤ hi)
    (fetchEventsInRange lo hi) w := by
  refine ensures_bind (ensures_query fun w1 hw1 i _ w2 hw2 => ?_)
  have hm := (coverage ScVal).env_trans hw1 hw2
  cases hp : eventsOfPages lo hi i.pages with
  | none => trivial
  | some =>
    refine ensures_pure fun w3 hw3 => ?_
    exact ⟨(coverage ScVal).env_trans hm hw3,mem_eventsOfPages hp⟩

lemma ensures_digest (events w) :
    (coverage ScVal).Ensures (fun _ w' => CursorMoves w w') (digestProgram ix events) w := by
  rw [digestProgram]
  cases digestEvents ix events with
  | ok => exact ensures_pure fun w' hw' => hw'
  | error => trivial

lemma ensures_processChunk (lo hi) (h : Covered w) : (coverage ScVal).Ensures
    (fun res w' => Grows w w' ∧ HandedRange lo hi w' ∧
    HandedRange lo res.lastProcessedLedger w')
    (processChunk ix lo hi) w := by
  rw [processChunk]
  split
  · next he =>
    refine ensures_bind ((ensures_digest [] w).mono fun dig w1 hw1 => ?_)
    refine ensures_pure fun w2 hw2 => ?_
    refine ⟨(CursorMoves.grows hw1).trans (CursorMoves.grows hw2),?_,?_⟩
    · intro lg ht hn
      omega
    · intro lg ht hn
      have : lg ≤ lo - 1 := hn
      omega
  · next hr =>
    refine ensures_bind ((ensures_fetch w).mono fun events w1 hw1 => ?_)
    obtain ⟨hm,hs⟩ := hw1
    have hg : Grows w w1 := hm.grows
    split
    · refine ensures_bind ((ensures_noteHanded _ _ (h.grows hg)).mono fun _ w2 hw2 => ?_)
      refine ensures_bind ((ensures_digest [] w2).mono fun dig w3 hw3 => ?_)
      refine ensures_pure fun w4 hw4 => ?_
      have hl := (CursorMoves.grows hw3).trans (CursorMoves.grows hw4)
      exact ⟨(hg.trans hw2.1).trans hl,hw2.2.grows hl,hw2.2.grows hl⟩
    · refine ensures_bind ((ensures_storeProgram _ _ events (h.grows hg)).mono fun _ w2 hw2 => ?_)
      refine ensures_bind ((ensures_digest events w2).mono fun dig w3 hw3 => ?_)
      refine ensures_pure fun w4 hw4 => ?_
      have hl := (CursorMoves.grows hw3).trans (CursorMoves.grows hw4)
      have hp : max (events.foldl (fun m ev => max m ev.ledger) lo) hi = hi :=
        max_eq_right (foldl_max_le (not_lt.mp hr) fun ev hv => (hs ev hv).2)
      refine ⟨(hg.trans hw2.1).trans hl,hw2.2.grows hl,?_⟩
      show HandedRange lo (max _ hi) w4
      rw [hp]
      exact hw2.2.grows hl

end

section
variable {ScVal : Type} {ix : Indexer ScVal} {w w' : World} {pos : Nat}

structure Ready (position : Nat) (w : World) : Prop where
  covered : Covered w
  within : Within w.db.checkpoints position
  le_cursor : position ≤ w.cursor

lemma Ready.grows (h : Ready pos w) (hg : Grows w w') : Ready pos w' := by
  refine ⟨h.covered.grows hg,?_,h.le_cursor.trans hg.2.1⟩
  rw [hg.1]
  exact h.within

lemma Ready.moves (h : Ready pos w) (hm : CursorMoves w w') : Ready pos w' :=
  h.grows hm.grows

lemma ensures_getLastIndexedLedger (h : Covered w) :
    (coverage ScVal).Ensures (fun pos w' => Ready pos w')
    (getLastIndexedLedger : Program ScVal Nat) w := by
  refine ensures_bind (ensures_get h fun w1 hw1 w2 hw2 => ?_)
  have hv : Covered w1 := (coverage ScVal).env_inv hw1 h
  have hc2 : Covered w2 := (coverage ScVal).env_inv hw2 hv
  cases hs : w1.db.indexerState with
  | some row =>
    have hc : w1.cursor = row.lastFinalizedLedger := by
      rw [World.cursor,hs]
      rfl
    have hr : Ready row.lastFinalizedLedger w1 := ⟨hv,hc ▸ hv.within,hc.ge⟩
    exact ensures_pure fun w3 hw3 => (hr.moves hw2).moves hw3
  | none =>
    refine ensures_bind (ensures_modify fun w3 hw3 w4 hw4 => ?_)
    have hc3 : Covered w3 := (coverage ScVal).env_inv hw3 hc2
    obtain ⟨hz,rfl⟩ := insertIndexerState_eq_ok hw4
    have hc4 : Covered (w3.setIndexerState ⟨0,0⟩) :=
      covered_of_eq hc3 rfl (by rw [hz]; exact Nat.zero_le _) rfl
    have hr : Ready 0 (w3.setIndexerState ⟨0,0⟩) := ⟨hc4,hc4.within,le_rfl⟩
    refine ⟨hc4,fun w5 hw5 => ensures_pure fun w6 hw6 => ?_⟩
    exact (hr.moves hw5).moves hw6

lemma ensures_updateLastIndexedLedger (n) (h : Covered w) :
    (coverage ScVal).Ensures (fun _ w' => Covered w')
    (updateLastIndexedLedger n : Program ScVal Unit) w := by
  refine ensures_bind (ensures_step fun w1 hw1 upd w2 hw2 => ?_)
  have hc : Covered w1 := (coverage ScVal).env_inv hw1 h
  have hr : Covered w2 := by
    cases hs : w1.db.indexerState with
    | none =>
      rw [hs] at hw2
      cases hw2
      exact hc
    | some =>
      rw [hs] at hw2
      cases hw2
      refine covered_of_eq hc rfl ?_ rfl
      rw [World.cursor,hs]
      exact le_max_left _ _
  refine ⟨hr,fun w3 hw3 => ?_⟩
  have hc3 : Covered w3 := (coverage ScVal).env_inv hw3 hr
  split
  · exact ensures_pure fun w4 hw4 => (coverage ScVal).env_inv hw4 hc3
  · refine ensures_modify fun w4 hw4 w5 hw5 => ?_
    have hc4 : Covered w4 := (coverage ScVal).env_inv hw4 hc3
    obtain ⟨hz,rfl⟩ := insertIndexerState_eq_ok hw5
    have hc5 : Covered (w4.setIndexerState ⟨n,n⟩) :=
      covered_of_eq hc4 rfl (by rw [hz]; exact Nat.zero_le _) rfl
    exact ⟨hc5,fun w6 hw6 => (coverage ScVal).env_inv hw6 hc5⟩

lemma Covered.setDigest (h : Covered w) (lo top dig) : Covered (setDigest lo top dig w) := by
  have hs : ∀ c f : Checkpoint, (f = c ∨ f = { c with rangeDigest := some dig }) →
      f.rangeStart = c.rangeStart ∧ f.rangeEnd = c.rangeEnd ∧ f.status = c.status := by
    rintro c f (rfl | rfl)
    · exact ⟨rfl,rfl,rfl⟩
    · exact ⟨rfl,rfl,rfl⟩
  have hf : ∀ c : Checkpoint,
      let f := if c.Is .verified lo top then { c with rangeDigest := some dig }
        else c
      f.rangeStart = c.rangeStart ∧ f.rangeEnd = c.rangeEnd ∧ f.status = c.status := by
    intro c
    refine hs c _ ?_
    split
    · exact .inr rfl
    · exact .inl rfl
  refine h.map ?_ ?_ ?_
  · intro c _ ht he
    obtain ⟨h1,h2,h3⟩ := hf c
    rw [h1,h2,h3]
    exact ⟨ht,he⟩
  · intro c _
    obtain ⟨h1,h2,h3⟩ := hf c
    rw [h1,h2,h3]
    exact ⟨le_rfl,rfl,id⟩
  · intro c _ hss lg hc
    obtain ⟨h1,h2,h3⟩ := hf c
    rw [Checkpoint.Contains,h1,h2,h3]
    exact .inl ⟨hss,hc⟩

lemma ensures_detectAndRollbackReorg (h : Covered w) :
    (coverage ScVal).Ensures (fun _ w' => Covered w') (detectAndRollbackReorg ix) w := by
  have hv : ∀ {w w'}, Covered w → (coverage ScVal).env w w' → Covered w' :=
    fun hc hs => (coverage ScVal).env_inv hs hc
  refine ensures_bind (ensures_bind (ensures_query fun w1 hw1 i _ w2 hw2 => ?_))
  have hc2 := hv (hv h hw1) hw2
  refine ensures_get hc2 fun w3 hw3 w4 hw4 => ?_
  have hc4 := hv (hv hc2 hw3) hw4
  cases hf : (latestVerified w3.db.checkpoints)[i.row % (latestVerified
      w3.db.checkpoints).length]? with
  | none => exact ensures_pure fun w5 hw5 => hv hc4 hw5
  | some c =>
    refine ensures_bind ((ensures_fetch w4).mono fun events w5 hw5 => ?_)
    refine ensures_bind ((ensures_digest events w5).mono fun dig w6 hw6 => ?_)
    have hs := (coverage ScVal).env_trans hw5.1 hw6
    have hc6 := hv hc4 hs
    cases c.rangeDigest with
    | none =>
      refine ensures_bind (ensures_modify fun w7 hw7 w8 hw8 => ?_)
      cases hw8
      have hc8 := (hv hc6 hw7).setDigest c.rangeStart c.rangeEnd dig
      refine ⟨hc8,fun w9 hw9 => ensures_pure fun w10 hw10 => ?_⟩
      exact hv (hv hc8 hw9) hw10
    | some =>
      simp only
      split
      · exact ensures_pure fun w7 hw7 => hv hc6 hw7
      · exact ensures_bind (ensures_modify fun w7 _ w8 hw8 => absurd hw8 rollbackStep_ne_ok)

end

section
variable {ScVal : Type} {ix : Indexer ScVal} {w w' : World} {pos : Nat}

structure Pending (position : Nat) (ranges : List (Nat × Nat)) (w : World) : Prop where
  ready : Ready position w
  nodup : ranges.Nodup
  suspect : ∀ range ∈ ranges, ∃ c ∈ w.db.checkpoints, c.Is .suspect range.1 range.2

variable {ranges : List (Nat × Nat)} {range : Nat × Nat} {hi : Nat}
  {checkpoints : List Checkpoint}

lemma Pending.grows (h : Pending pos ranges w) (hg : Grows w w') : Pending pos ranges w' := by
  refine ⟨h.ready.grows hg,h.nodup,?_⟩
  rw [hg.1]
  exact h.suspect

lemma Pending.tail (h : Pending pos (range :: ranges) w) : Pending pos ranges w :=
  ⟨h.ready,(nodup_cons.mp h.nodup).2,fun r hr => h.suspect r (mem_cons_of_mem _ hr)⟩

lemma Pending.map {f} (h : Pending pos (range :: ranges) w)
    (hf : ∀ c, ¬ c.Is .suspect range.1 range.2 → f c = c)
    (hr : Ready pos (w.setCheckpoints (w.db.checkpoints.map f))) :
    Pending pos ranges (w.setCheckpoints (w.db.checkpoints.map f)) := by
  refine ⟨hr,h.tail.nodup,fun other ho => ?_⟩
  obtain ⟨c,hc,hs⟩ := h.tail.suspect other ho
  have hn : ¬ c.Is .suspect range.1 range.2 := by
    rintro ⟨-,ht,he⟩
    have hq : other = range := Prod.ext (hs.2.1.symm.trans ht) (hs.2.2.symm.trans he)
    exact (nodup_cons.mp h.nodup).1 (hq ▸ ho)
  exact ⟨c,mem_map.mpr ⟨c,hc,hf c hn⟩,hs⟩

def Checkpoint.verify (rangeStart rangeEnd : Nat) (digest : String) (c : Checkpoint) : Checkpoint :=
  if c.Is .suspect rangeStart rangeEnd then
    { c with status := .verified, rangeDigest := some digest }
  else c

lemma Checkpoint.verify_range (lo top dig) (c : Checkpoint) :
    (c.verify lo top dig).rangeStart = c.rangeStart ∧ (c.verify lo top dig).rangeEnd =
    c.rangeEnd ∧ ((c.verify lo top dig).status = .suspect → c.status = .suspect) := by
  rw [Checkpoint.verify]
  split
  · refine ⟨rfl,rfl,fun h => ?_⟩
    cases h
  · exact ⟨rfl,rfl,id⟩

lemma Pending.verify (h : Pending pos (range :: ranges) w) (dig)
    (hh : HandedRange range.1 range.2 w) :
    Pending pos ranges (verifyRange range.1 range.2 dig w) := by
  have hv : Covered (verifyRange range.1 range.2 dig w) := by
    refine h.ready.covered.map (f := Checkpoint.verify range.1 range.2 dig) ?_ ?_ ?_
    · intro c _ ht he
      obtain ⟨h1,h2,h3⟩ := c.verify_range range.1 range.2 dig
      rw [h1,h2]
      exact ⟨ht,fun hss => he (h3 hss)⟩
    · intro c _
      obtain ⟨h1,h2,h3⟩ := c.verify_range range.1 range.2 dig
      exact ⟨h1.ge,h2,h3⟩
    · intro c _ hss lg hn
      by_cases hs : c.Is .suspect range.1 range.2
      · obtain ⟨hl,hhi⟩ := hn
        exact .inr (hh lg (hs.2.1 ▸ hl) (hs.2.2 ▸ hhi))
      · rw [Checkpoint.verify,if_neg hs]
        exact .inl ⟨hss,hn⟩
  refine h.map (f := Checkpoint.verify range.1 range.2 dig) (fun c hc => if_neg hc)
    ⟨hv,?_,h.ready.le_cursor⟩
  intro c hc
  obtain ⟨c0,hc0,rfl⟩ := mem_map.mp hc
  obtain ⟨h1,h2,h3⟩ := c0.verify_range range.1 range.2 dig
  obtain ⟨ht,he⟩ := h.ready.within c0 hc0
  rw [h1,h2]
  exact ⟨ht,fun hss => he (h3 hss)⟩

def Checkpoint.shrink (rangeStart rangeEnd newStart : Nat) (c : Checkpoint) : Checkpoint :=
  if h : c.Is .suspect rangeStart rangeEnd ∧ newStart ≤ c.rangeEnd then
    { c with rangeStart := newStart, range_check := h.2 }
  else c

lemma mapM_shrink {lo top newStart checkpoints'} (h : (checkpoints.mapM fun c =>
    if c.Is .suspect lo top then c.moveStart newStart else pure c) = .ok checkpoints') :
    checkpoints' = checkpoints.map (Checkpoint.shrink lo top newStart) ∧
    ∀ c ∈ checkpoints, c.Is .suspect lo top → newStart ≤ c.rangeEnd := by
  induction checkpoints generalizing checkpoints' with
  | nil =>
    cases h
    exact ⟨rfl,fun c hc => absurd hc not_mem_nil⟩
  | cons c checkpoints ih =>
    simp only [mapM_cons,bind_eq_ok,pure_eq_ok] at h
    obtain ⟨_,hc',_,hr,rfl⟩ := h
    obtain ⟨rfl,ha⟩ := ih hr
    rw [map_cons,forall_mem_cons,Checkpoint.shrink]
    by_cases hs : c.Is .suspect lo top
    · rw [if_pos hs,Checkpoint.moveStart] at hc'
      by_cases hl : newStart ≤ c.rangeEnd
      · rw [dif_pos hl] at hc'
        cases hc'
        rw [dif_pos ⟨hs,hl⟩]
        exact ⟨rfl,fun _ => hl,ha⟩
      · rw [dif_neg hl] at hc'
        cases hc'
    · rw [if_neg hs] at hc'
      cases hc'
      rw [dif_neg fun hb => hs hb.1]
      exact ⟨rfl,fun h => absurd h hs,ha⟩

structure Split (position : Nat) (range : Nat × Nat) (endLedger : Nat) (w : World) : Prop where
  start : range.1 ≤ position + 1
  nonempty : range.1 ≤ endLedger
  handed : HandedRange range.1 endLedger w
  free : ∀ c ∈ w.db.checkpoints, c.status = .suspect →
    c.rangeEnd < range.1 ∨ endLedger < c.rangeStart
  rest : ∃ c ∈ w.db.checkpoints, c.rangeStart = endLedger + 1

lemma Split.moves (h : Split pos range hi w) (hm : CursorMoves w w') : Split pos range hi w' := by
  refine ⟨h.start,h.nonempty,h.handed.grows hm.grows,?_,?_⟩
  · rw [hm.1]
    exact h.free
  · rw [hm.1]
    exact h.rest

lemma Checkpoint.shrink_range (lo top newStart) (c : Checkpoint) :
    (c.shrink lo top newStart).rangeEnd = c.rangeEnd ∧
    (c.shrink lo top newStart).status = c.status := by
  rw [Checkpoint.shrink]
  split
  · exact ⟨rfl,rfl⟩
  · exact ⟨rfl,rfl⟩

lemma Pending.shrink (h : Pending pos (range :: ranges) w) (hr : range.1 ≤ hi)
    (hh : HandedRange range.1 hi w)
    (ho : shrinkRange range.1 range.2 (hi + 1) w = .ok w') :
    Pending pos ranges w' ∧ Split pos range hi w' := by
  simp only [shrinkRange,bind_eq_ok,pure_eq_ok] at ho
  obtain ⟨_,hma,rfl⟩ := ho
  obtain ⟨rfl,hen⟩ := mapM_shrink hma
  let f := Checkpoint.shrink range.1 range.2 (hi + 1)
  have hk : ∀ c, ¬ c.Is .suspect range.1 range.2 → f c = c := fun c hc => dif_neg fun ht => hc ht.1
  have hm : ∀ c ∈ w.db.checkpoints, c.Is .suspect range.1 range.2 → (f c).rangeStart = hi + 1 := by
    intro c hc hs
    show (Checkpoint.shrink _ _ _ c).rangeStart = _
    rw [Checkpoint.shrink,dif_pos ⟨hs,hen c hc hs⟩]
  have he' : ∀ c, (f c).rangeEnd = c.rangeEnd ∧ (f c).status = c.status :=
    Checkpoint.shrink_range _ _ _
  have hin : ∀ bound, Within w.db.checkpoints bound → Within (w.db.checkpoints.map f) bound := by
    intro bound hb c hc
    obtain ⟨c0,hc0,rfl⟩ := mem_map.mp hc
    obtain ⟨hst,he⟩ := hb c0 hc0
    obtain ⟨h1,h2⟩ := he' c0
    rw [h1,h2]
    refine ⟨?_,he⟩
    by_cases hs : c0.Is .suspect range.1 range.2
    · have := hen c0 hc0 hs
      have := he hs.1
      rw [hm c0 hc0 hs]
      omega
    · rw [hk c0 hs]
      exact hst
  have hv : Covered (w.setCheckpoints (w.db.checkpoints.map f)) := by
    refine h.ready.covered.map ?_ ?_ ?_
    · intro c hc _ _
      exact hin w.cursor h.ready.covered.within (f c) (mem_map_of_mem hc)
    · intro c hc
      obtain ⟨h1,h2⟩ := he' c
      refine ⟨?_,h1,fun hss => h2 ▸ hss⟩
      by_cases hs : c.Is .suspect range.1 range.2
      · rw [hm c hc hs,hs.2.1]
        omega
      · rw [hk c hs]
    · intro c hc hss lg hn
      obtain ⟨h1,h2⟩ := he' c
      by_cases hs : c.Is .suspect range.1 range.2
      · by_cases hl : lg ≤ hi
        · exact .inr (hh lg (hs.2.1 ▸ hn.1) hl)
        · refine .inl ⟨h2.trans hss,?_,h1 ▸ hn.2⟩
          rw [hm c hc hs]
          omega
      · rw [hk c hs]
        exact .inl ⟨hss,hn⟩
  obtain ⟨c,hc,hs⟩ := h.suspect range (mem_cons_self ..)
  refine ⟨h.map hk ⟨hv,hin pos h.ready.within,h.ready.le_cursor⟩,?_,hr,hh,?_,?_⟩
  · exact hs.2.1 ▸ (h.ready.within c hc).1
  · intro d hd hss
    obtain ⟨d0,hd0,rfl⟩ := mem_map.mp hd
    obtain ⟨h1,h2⟩ := he' d0
    by_cases hd₀is : d0.Is .suspect range.1 range.2
    · right
      show hi < (f d0).rangeStart
      rw [hm d0 hd0 hd₀is]
      omega
    -- another suspect range, which did not overlap with this one
    have hne : d0 ≠ c := fun hq => hd₀is (hq ▸ hs)
    have ha := h.ready.covered.apart.forall hd0 hc hne (.inr hs.1)
    have he := hen c hc hs
    show (f d0).rangeEnd < range.1 ∨ hi < (f d0).rangeStart
    rw [hk d0 hd₀is]
    rw [hs.2.1,hs.2.2] at ha
    rw [hs.2.2] at he
    omega
  · exact ⟨f c,mem_map_of_mem hc,hm c hc hs⟩

lemma Pending.insert {dig} (h : Pending pos ranges w) (hp : Split pos range hi w)
    (ho : insertCheckpoint range.1 hi .verified dig w = .ok w') :
    Pending pos ranges w' := by
  obtain ⟨hrn,rfl⟩ := insertCheckpoint_eq_ok ho
  obtain ⟨c,hc,ht⟩ := hp.rest
  have hcr := c.range_check
  have hin : ∀ bound, pos ≤ bound → Within w.db.checkpoints bound →
      Within (w.db.checkpoints ++ [⟨range.1,hi,.verified,dig,hrn⟩]) bound := by
    intro bound hl hb
    refine forall_mem_append.mpr ⟨hb,forall_mem_singleton.mpr ⟨?_,fun h => nomatch h⟩⟩
    exact hp.start.trans (by omega)
  refine ⟨⟨⟨?_,?_,?_⟩,?_,h.ready.le_cursor⟩,h.nodup,?_⟩
  · exact hin w.cursor h.ready.le_cursor h.ready.covered.within
  · refine pairwise_append.mpr ⟨h.ready.covered.apart,pairwise_singleton _ _,?_⟩
    intro d hd new hw hss
    rw [mem_singleton.mp hw] at hss ⊢
    rcases hss with hss | hss
    · exact hp.free d hd hss
    · cases hss
  · refine h.ready.covered.hull.insert ?_ ?_ ?_
    · exact fun lg hn => .inr (hp.handed lg hn.1 hn.2)
    · exact fun _ _ => ⟨c,hc,ht.le⟩
    · refine fun _ _ => ⟨c,hc,?_⟩
      show range.1 ≤ c.rangeEnd + 1
      omega
  · exact hin pos le_rfl h.ready.within
  · intro r hr
    obtain ⟨d,hd,hs⟩ := h.suspect r hr
    exact ⟨d,mem_append_left _ hd,hs⟩

lemma ensures_backfillRange (finalizedTip) (h : Pending pos (range :: ranges) w) :
    (coverage ScVal).Ensures (fun _ w' => Pending pos ranges w')
    (backfillRange ix finalizedTip range) w := by
  rw [backfillRange]
  split
  · exact ensures_pure fun w1 hw1 => h.tail.grows (CursorMoves.grows hw1)
  · next hr =>
    have hr := not_lt.mp hr
    refine ensures_bind ((ensures_processChunk _ _ h.ready.covered).mono fun res w1 hw1 => ?_)
    obtain ⟨hg,hh,-⟩ := hw1
    have hp := h.grows hg
    split
    · next he =>
      refine ensures_modify fun w2 hw2 w3 hw3 => ?_
      cases hw3
      have hm : Grows w1 w2 := CursorMoves.grows hw2
      have hvr := (hp.grows hm).verify res.rangeDigest (he ▸ hh.grows hm)
      exact ⟨hvr.ready.covered,fun w4 hw4 => hvr.grows (CursorMoves.grows hw4)⟩
    · refine ensures_bind (ensures_modify fun w2 hw2 w3 hw3 => ?_)
      have hm : Grows w1 w2 := CursorMoves.grows hw2
      obtain ⟨hs,hsp⟩ := (hp.grows hm).shrink hr (hh.grows hm) hw3
      refine ⟨hs.ready.covered,fun w4 hw4 => ensures_modify fun w5 hw5 w6 hw6 => ?_⟩
      have hv := (coverage ScVal).env_trans hw4 hw5
      have hn := (hs.grows (CursorMoves.grows hv)).insert (hsp.moves hv) hw6
      exact ⟨hn.ready.covered,fun w7 hw7 => hn.grows (CursorMoves.grows hw7)⟩

lemma nodup_suspects (h : checkpoints.Pairwise Checkpoint.Apart) :
    ((checkpoints.filter fun c => c.status = .suspect).map fun c =>
    (c.rangeStart,c.rangeEnd)).Nodup := by
  rw [List.Nodup,pairwise_map]
  refine (h.filter _).imp_of_mem fun {c c'} hc _ ha he => ?_
  have hs := of_decide_eq_true (mem_filter.mp hc).2
  have := ha (.inl hs)
  have := c.range_check
  have := c'.range_check
  obtain ⟨_,_⟩ := Prod.mk.inj he
  omega

lemma ensures_backfillMissingRanges (finalizedTip) (h : Ready pos w) :
    (coverage ScVal).Ensures (fun _ w' => Ready pos w')
    (backfillMissingRanges ix finalizedTip) w := by
  rw [backfillMissingRanges]
  split
  · exact ensures_pure fun w1 hw1 => h.moves hw1
  · refine ensures_bind (ensures_get h.covered fun w1 hw1 w2 hw2 => ?_)
    have hr := (h.moves hw1).moves hw2
    refine (ensures_forEach (Pending pos) (fun _ _ _ hv hp => hp.grows (CursorMoves.grows hv))
      (fun range rest w3 hp => ensures_backfillRange finalizedTip hp)
      ⟨hr,?_,?_⟩).mono fun _ w3 hw3 => hw3.ready
    · refine (perm_insertionSort _ _).nodup_iff.mpr ?_
      rw [← hw2.1]
      exact nodup_suspects hr.covered.apart
    · intro range hm
      rw [mem_insertionSort,← hw2.1] at hm
      obtain ⟨c,hc,rfl⟩ := mem_map.mp hm
      obtain ⟨hc,hs⟩ := mem_filter.mp hc
      exact ⟨c,hc,of_decide_eq_true hs,rfl,rfl⟩

end

section
variable {ScVal : Type} {ix : Indexer ScVal} {w w' : World} {pos : Nat}

def Closed (position : Nat) (checkpoints : List Checkpoint) : Prop :=
  checkpoints = [] ∨ ∃ c ∈ checkpoints, position ≤ c.rangeEnd

lemma Ready.flag {prev} (h : Ready pos w) (hp : lastRangeEnd w.db.checkpoints = some prev)
    (ho : insertCheckpoint (prev + 1) pos .suspect none w = .ok w') :
    Ready pos w' ∧ Closed pos w'.db.checkpoints := by
  obtain ⟨hr,rfl⟩ := insertCheckpoint_eq_ok ho
  obtain ⟨hm,hx⟩ := max?_eq_some_iff.mp hp
  obtain ⟨last,hl,rfl⟩ := mem_map.mp hm
  let new : Checkpoint := ⟨last.rangeEnd + 1,pos,.suspect,none,hr⟩
  have hin : ∀ bound, pos ≤ bound → Within w.db.checkpoints bound →
      Within (w.db.checkpoints ++ [new]) bound := by
    intro bound he hb
    refine forall_mem_append.mpr ⟨hb,forall_mem_singleton.mpr ⟨?_,fun _ => he⟩⟩
    exact (hr.trans he).trans (Nat.le_succ bound)
  have hw : new ∈ w.db.checkpoints ++ [new] := mem_append_right _ (mem_singleton_self _)
  refine ⟨⟨⟨?_,?_,?_⟩,?_,h.le_cursor⟩,.inr ⟨new,hw,le_rfl⟩⟩
  · exact hin w.cursor h.le_cursor h.covered.within
  · refine pairwise_append.mpr ⟨h.covered.apart,pairwise_singleton _ _,?_⟩
    intro c hc d hd _
    rw [mem_singleton.mp hd]
    exact .inl (Nat.lt_succ_of_le (hx _ (mem_map_of_mem hc)))
  · refine h.covered.hull.insert ?_ ?_ ?_
    · exact fun lg hn => .inl ⟨new,hw,rfl,hn⟩
    · exact fun c hc => ⟨c,hc,(h.within c hc).1⟩
    · exact fun _ _ => ⟨last,hl,le_rfl⟩
  · exact hin pos le_rfl h.within

structure Flagged (position rangeEnd : Nat) (w : World) : Prop where
  ready : Ready position w
  closed : Closed position w.db.checkpoints
  handed : HandedRange (position + 1) rangeEnd w

variable {top : Nat}

lemma Flagged.moves (h : Flagged pos top w) (hm : CursorMoves w w') : Flagged pos top w' := by
  refine ⟨h.ready.moves hm,?_,h.handed.grows hm.grows⟩
  rw [hm.1]
  exact h.closed

lemma ensures_flagGap {prev} (h : Ready pos w) (hh : HandedRange (pos + 1) top w)
    (hp : lastRangeEnd w.db.checkpoints = prev) :
    (coverage ScVal).Ensures (fun _ w' => Flagged pos top w')
    (flagGap (pos + 1) prev : Program ScVal Unit) w := by
  cases prev with
  | none =>
    have hn := map_eq_nil_iff.mp (max?_eq_none_iff.mp hp)
    have hf : Flagged pos top w := ⟨h,.inl hn,hh⟩
    exact ensures_pure fun w1 hw1 => hf.moves hw1
  | some =>
    rw [flagGap]
    split
    · refine ensures_modify fun w1 hw1 w2 hw2 => ?_
      obtain ⟨hr,hl⟩ := (h.moves hw1).flag (hw1.1 ▸ hp) hw2
      obtain ⟨_,rfl⟩ := insertCheckpoint_eq_ok hw2
      have hh1 : HandedRange (pos + 1) top w1 := hh.grows (CursorMoves.grows hw1)
      have hf : Flagged pos top _ := ⟨hr,hl,hh1⟩
      exact ⟨hr.covered,fun w3 hw3 => hf.moves hw3⟩
    · next hg =>
      obtain ⟨c,hc,rfl⟩ := mem_map.mp (max?_eq_some_iff.mp hp).1
      have hf : Flagged pos top w := ⟨h,.inr ⟨c,hc,by omega⟩,hh⟩
      exact ensures_pure fun w1 hw1 => hf.moves hw1

lemma Flagged.record {dig} (hf : Flagged pos top w)
    (ho : insertCheckpoint (pos + 1) top .verified dig w = .ok w') : Covered w' := by
  obtain ⟨hr,rfl⟩ := insertCheckpoint_eq_ok ho
  obtain ⟨h,hl,hh⟩ := hf
  have hle := h.le_cursor
  refine ⟨?_,?_,?_⟩
  · refine forall_mem_append.mpr ⟨h.covered.within,forall_mem_singleton.mpr ?_⟩
    exact ⟨Nat.succ_le_succ hle,fun hs => nomatch hs⟩
  · refine pairwise_append.mpr ⟨h.covered.apart,pairwise_singleton _ _,?_⟩
    intro c hc new hw hs
    rw [mem_singleton.mp hw] at hs ⊢
    rcases hs with hs | hs
    · exact .inl (Nat.lt_succ_of_le ((h.within c hc).2 hs))
    · cases hs
  · refine h.covered.hull.insert ?_ ?_ ?_
    · exact fun lg hn => .inr (hh lg hn.1 hn.2)
    · exact fun c hc => ⟨c,hc,(h.within c hc).1.trans (hr.trans (Nat.le_succ _))⟩
    · intro c hc
      rcases hl with hnl | ⟨last,ha,he⟩
      · rw [hnl] at hc
        exact absurd hc not_mem_nil
      · exact ⟨last,ha,Nat.succ_le_succ he⟩

lemma ensures_recordCheckpoint (dig) (h : Ready pos w)
    (hh : HandedRange (pos + 1) top w) : (coverage ScVal).Ensures (fun _ w' => Covered w')
    (recordCheckpoint (pos + 1) top dig : Program ScVal Unit) w := by
  refine ensures_bind (ensures_get h.covered fun w1 hw1 w2 hw2 => ?_)
  have hm := (coverage ScVal).env_trans hw1 hw2
  have hh2 : HandedRange (pos + 1) top w2 := hh.grows hm.grows
  refine ensures_bind ((ensures_flagGap (h.moves hm) hh2 (by rw [hw2.1])).mono fun _ w3 hw3 => ?_)
  refine ensures_modify fun w4 hw4 w5 hw5 => ?_
  have hc := (hw3.moves hw4).record hw5
  exact ⟨hc,fun w6 hw6 => (coverage ScVal).env_inv hw6 hc⟩

lemma ensures_indexNextBatch (finalizedLedger) (h : Ready pos w) :
    (coverage ScVal).Ensures (fun _ w' => Covered w')
    (indexNextBatch ix pos finalizedLedger) w := by
  refine ensures_bind ((ensures_processChunk _ _ h.covered).mono fun res w1 hw1 => ?_)
  obtain ⟨hg,-,hh⟩ := hw1
  refine ensures_bind ((ensures_recordCheckpoint _ (h.grows hg) hh).mono fun _ w2 hw2 => ?_)
  exact ensures_updateLastIndexedLedger _ hw2

lemma ensures_pollOnce (h : Covered w) :
    (coverage ScVal).Ensures (fun _ w' => Covered w') (pollOnce ix) w := by
  have hm : ∀ {w w'}, Covered w → (coverage ScVal).env w w' → Covered w' :=
    fun hc hv => (coverage ScVal).env_inv hv hc
  refine ensures_bind ((ensures_getLastIndexedLedger h).mono fun _ w1 hw1 => ?_)
  refine ensures_bind (ensures_query fun w2 hw2 i _ w3 hw3 => ?_)
  have hc3 := hm (hm hw1.covered hw2) hw3
  split
  · exact ensures_pure fun w4 hw4 => hm hc3 hw4
  · refine ensures_bind ((ensures_detectAndRollbackReorg hc3).mono fun _ w4 hw4 => ?_)
    refine ensures_bind ((ensures_getLastIndexedLedger hw4).mono fun pos w5 hw5 => ?_)
    refine ensures_bind ((ensures_backfillMissingRanges _ hw5).mono fun _ w6 hw6 => ?_)
    split
    · exact ensures_pure fun w7 hw7 => hm hw6.covered hw7
    · exact ensures_indexNextBatch _ hw6

end

variable {ScVal : Type}

lemma covered_of_checkpoints_eq_nil {w : World} (h : w.db.checkpoints = []) : Covered w where
  within := by
    rw [h]
    exact forall_mem_nil _
  apart := by
    rw [h]
    exact List.Pairwise.nil
  hull := by
    rw [h]
    exact forall_mem_nil _

lemma cursorMoves_advanceCursor (state w) : CursorMoves w (advanceCursor state w) := by
  rw [advanceCursor]
  split
  · next hl => exact ⟨rfl,rfl,hl⟩
  · exact ⟨rfl,rfl,le_rfl⟩

lemma legal_pollSystem (ix moves c) : (pollSystem ix).Legal (coverage ScVal) moves c := by
  induction moves generalizing c with
  | nil => trivial
  | cons m moves ih =>
    refine ⟨?_,ih _⟩
    obtain ⟨p,w⟩ := c
    cases m with
    | answer =>
      cases p with
      | ask => trivial
      | done => trivial
      | throw => trivial
      | act => trivial
    | outside state => exact cursorMoves_advanceCursor state w
    | proceed => trivial
    | crash => trivial

/-- Along every run of the poll loop, from tables with no recorded range on: each ledger between the
start of a recorded range and the end of one is inside a suspect range, or was handed to a
`storeEvents` pass that was committed or found no events after the last rollback that covered it. -/
theorem no_ledger_skipped (ix : Indexer ScVal) (db : Database)
    (moves : List (Move (Answer ScVal) IndexerState)) :
    let start : World := ⟨{ db with checkpoints := [] },[]⟩
    let w := ((pollSystem ix).run moves (pollOnce ix, start)).2
    ∀ c ∈ w.db.checkpoints, ∀ c' ∈ w.db.checkpoints, ∀ ledger,
      c.rangeStart ≤ ledger → ledger ≤ c'.rangeEnd →
      (∃ s ∈ w.db.checkpoints, s.status = .suspect ∧ s.Contains ledger) ∨
        HandedSince w.trace ledger := by
  intro start w
  have hs : Covered start := covered_of_checkpoints_eq_nil rfl
  have hr : Covered w ∧ _ := System.invariant_run (S := coverage ScVal)
    (fun w hw => ensures_pollOnce hw) (fun _ w _ hw => ensures_pollOnce hw)
    (legal_pollSystem ix moves (pollOnce ix,start)) hs (ensures_pollOnce hs)
  exact hr.1.hull

end DukaPay.Backend
