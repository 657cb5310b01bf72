import DukaPay.Backend.Cursors
import DukaPay.Contractlib.Seek
import Mathlib.Data.Prod.Lex

/-! `getBorrowerEvents` lists rows of `contract_events` in descending order of their time of
creation and their sequence number. -/
namespace DukaPay.Backend.Paging
open Contractlib JavaScript List Option

/-! ### The table -/

/-- A row of `contract_events`, as far as it is selected. Sequence numbers count from one. -/
structure Row where
  id : Nat
  eventId : List Char
  eventType : List Char
  loanId : Option Int
  address : Option (List Char)
  amount : Option Int
  ledger : Option Int
  ledgerClosedAt : Int
  txHash : List Char
  createdAt : Int
  seq : Int
  seq_pos : 0 < seq

def Row.key (row : Row) : Int ×ₗ Int := toLex (row.createdAt,row.seq)

/-- The table when a request is served, and how `ORDER BY created_at DESC, seq DESC` orders rows. -/
structure Moment where
  table : List Row
  order : List Row → List Row
  ordered : ∀ rows, Ordered Row.key rows (order rows)

def maxSeq (table : List Row) : Int := (table.map Row.seq).foldr max 0

/-! ### Requests -/

structure Filters where
  status : Option (List Char)
  eventType : Option (List Char)
  amountRange : Option (Int × Int)
  dateRange : Option (Int × Int)

def Filters.requestedStatus (filters : Filters) : Option (List Char) :=
  let status := (filters.status.map trim).filter fun text => !text.isEmpty
  let requested :=
    if status.isSome ∧ status ≠ some ['a','l','l'] then status else filters.eventType
  requested.filter fun text => !text.isEmpty

structure Query where
  borrower : List Char
  named : borrower ≠ []
  filters : Filters
  limit : Option (List Char)

/-- The condition of `buildEventFilters` on a row. A comparison with `NULL` does not hold. -/
def Query.admits (query : Query) (row : Row) : Bool :=
  row.address == some query.borrower &&
  query.filters.requestedStatus.all (fun status => row.eventType == status) &&
  query.filters.amountRange.all (fun (low,high) =>
    row.amount.any fun amount => decide (low ≤ amount ∧ amount ≤ high)) &&
  query.filters.dateRange.all fun (start,stop) =>
    decide (start ≤ row.ledgerClosedAt ∧ row.ledgerClosedAt ≤ stop)

structure Request extends Query where
  snapshotSeq : Option (List Char)
  cursor : Option (List Char)

structure Page where
  items : List Row
  nextCursor : Option (List Char)
  snapshotSeq : List Char
  totalAtSnapshot : Nat
  limit : Nat

inductive Response where
  | page (page : Page)
  | failed (status : Nat) (message : String)

/-! ### The handler -/

def Query.visible (query : Query) (snapshot : Int) (row : Row) : Bool :=
  query.admits row && decide (row.seq ≤ snapshot)

def seeks (position : Option (Int × Int)) (row : Row) : Bool :=
  match position with
  | none => true
  | some (c,s) => decide (row.createdAt < c ∨ (row.createdAt = c ∧ row.seq < s))

def seekPosition (R : Runtime) (cursor : DecodedCursor) : Option (Int × Int) := do
  let iso ← toISOString cursor.createdAt
  let c ← R.timestamp iso
  some (c,cursor.seq)

def toDate (createdAt : Int) : Int := createdAt / 1000

def cursorAfter (hasNext : Bool) (events : List Row) : Option (Option (List Char)) :=
  if hasNext then
    match events.getLast? with
    | none => some none
    | some last => (encodeCursor (toDate last.createdAt) last.seq).map some
  else some none

def Moment.rows (now : Moment) (query : Query) (snapshot : Int) (position : Option (Int × Int)) :
    List Row :=
  now.table.filter fun row => query.visible snapshot row && seeks position row

def pageAt (now : Moment) (query : Query) (limit : Nat) (snapshot : Int)
    (position : Option (Int × Int)) : Option Page := do
  let rows := (now.order (now.rows query snapshot position)).take (limit + 1)
  let hasNext := decide (limit < rows.length)
  let events := if hasNext then rows.take limit else rows
  let nextCursor ← cursorAfter hasNext events
  some
    { items := events
      nextCursor := nextCursor
      snapshotSeq := bigIntToString snapshot
      totalAtSnapshot := (now.table.filter (query.visible snapshot)).length
      limit := limit }

def servePage (R : Runtime) (now : Moment) (request : Request) : Option Page := do
  let params ← parseKeysetParams request.snapshotSeq request.cursor request.limit
  let decodedCursor ← match params.cursor with
    | none => some none
    | some text => (decodeCursor R text).map some
  let snapshot := if params.snapshotSeq = 0 then maxSeq now.table else params.snapshotSeq
  let position ← match decodedCursor with
    | none => some none
    | some cursor => (seekPosition R cursor).map some
  pageAt now request.toQuery params.limit snapshot position

def getBorrowerEvents (R : Runtime) (now : Moment) (request : Request) : Response :=
  if request.borrower = [] then .failed 400 "Borrower is required"
  else match servePage R now request with
    | none => .failed 500 "Failed to get borrower events"
    | some page => .page page

/-! ### A client -/

def Query.first (query : Query) : Request :=
  { query with
    snapshotSeq := none
    cursor := none }

def Query.next (query : Query) (page : Page) : Request :=
  { query with
    snapshotSeq := some page.snapshotSeq
    cursor := page.nextCursor }

/-- The pages from a request on; request `i` is served at `moments i`. Nothing is a request that
fails, or too little fuel. -/
def follow (R : Runtime) (moments : Nat → Moment) (query : Query) :
    Nat → Nat → Request → Option (List Page)
  | 0,_,_ => none
  | fuel + 1,i,request =>
    match getBorrowerEvents R (moments i) request with
    | .failed _ _ => none
    | .page page =>
      if page.nextCursor.isNone then some [page]
      else (follow R moments query fuel (i + 1) (query.next page)).map (page :: ·)

def Grows (moments : Nat → Moment) : Prop :=
  ∀ i, ∃ added, (moments (i + 1)).table.Perm ((moments i).table ++ added) ∧
    ∀ row ∈ added, ∀ old ∈ (moments i).table, old.seq < row.seq

def Lossless (R : Runtime) (moments : Nat → Moment) (query : Query) : Prop :=
  ∃ fuel pages snapshot, follow R moments query fuel 0 query.first = some pages ∧
    (∀ page ∈ pages, page.snapshotSeq = bigIntToString snapshot ∧
      page.totalAtSnapshot = (pages.flatMap Page.items).length) ∧
    ∀ i, Ordered Row.key ((moments i).table.filter (query.visible snapshot))
      (pages.flatMap Page.items)

def positionOf (key : Int ×ₗ Int) : Option (Int ×ₗ Int) :=
  let date := toDate (ofLex key).1
  if Readable date then some (toLex (1000 * date,(ofLex key).2)) else none

/-! ### Positions -/

section

lemma positionOf_le (k c) (h : positionOf k = some c) : c ≤ k := by
  by_cases hr : Readable (toDate (ofLex k).1)
  · rw [positionOf,if_pos hr] at h
    obtain rfl := Option.some.inj h
    rw [Prod.Lex.le_iff,toDate]
    simp only [ofLex_toLex]
    omega
  · rw [positionOf,if_neg hr] at h
    cases h

lemma seeks_some_iff {p row} : seeks (some p) row = true ↔ row.key < toLex p := by
  obtain ⟨_,_⟩ := p
  rw [seeks,decide_eq_true_eq,Row.key,Prod.Lex.lt_iff]
  simp only [ofLex_toLex]

lemma seeks_of_lt {pos} {row l : Row}
    (h : seeks pos row = true) (hl : l.key < row.key) : seeks pos l = true := by
  cases pos with
  | none => rfl
  | some => exact seeks_some_iff.mpr (hl.trans (seeks_some_iff.mp h))

lemma toISOString_of_readable {t} (h : Readable t) : toISOString t = some (isoText t) := by
  have hd := Calendar.day_bounds h
  rw [toISOString,if_pos]
  rw [millisecondsPerDay] at hd
  omega

lemma positionOf_key (row : Row) : positionOf row.key = if Readable (toDate row.createdAt) then
    some (toLex (1000 * toDate row.createdAt,row.seq)) else none := rfl

lemma seekPosition_eq {R : Runtime} (hR : R.Documented) {row : Row} {t}
    (h : encodeCursor (toDate row.createdAt) row.seq = some t) :
    seekPosition R ⟨toDate row.createdAt,row.seq⟩ = (positionOf row.key).map ofLex := by
  obtain ⟨_,hs,-⟩ := encodeCursor_eq_some.mp h
  simp only [seekPosition,hs,bind_eq_bind,bind_some,hR.timestamp _ _ hs]
  rw [positionOf_key]
  by_cases hr : Readable (toDate row.createdAt)
  · rw [if_pos hr,if_pos hr]
    rfl
  · rw [if_neg hr,if_neg hr]
    rfl

lemma exists_encodeCursor {row : Row} {c} (h : positionOf row.key = some c) :
    ∃ text, encodeCursor (toDate row.createdAt) row.seq = some text := by
  have hr : Readable (toDate row.createdAt) := by
    by_contra hr
    rw [positionOf_key,if_neg hr] at h
    cases h
  exact ⟨_,encodeCursor_eq_some.mpr ⟨_,toISOString_of_readable hr,rfl⟩⟩

end

/-! ### Pages -/

section
variable {R : Runtime} {now : Moment} {query : Query} {limit : Nat} {snap : Int}
  {pos : Option (Int × Int)}

def pageWith (now : Moment) (query : Query) (limit : Nat) (snapshot : Int) (items : List Row)
    (nextCursor : Option (List Char)) : Page :=
  ⟨items,nextCursor,bigIntToString snapshot,
    (now.table.filter (query.visible snapshot)).length,limit⟩

lemma pageAt_of_le (h : (now.order (now.rows query snap pos)).length ≤ limit) :
    pageAt now query limit snap pos =
    some (pageWith now query limit snap (now.order (now.rows query snap pos))
    none) := by
  have ht : (now.order (now.rows query snap pos)).take (limit + 1) =
      now.order (now.rows query snap pos) := take_of_length_le (by omega)
  simp only [pageAt,ht,decide_eq_false (Nat.not_lt.mpr h)]
  rfl

lemma pageAt_of_lt {row} (hp : 0 < limit) (h : limit < (now.order (now.rows query snap pos)).length)
    (hr : (now.order (now.rows query snap pos))[limit - 1]? = some row) :
    pageAt now query limit snap pos =
    (encodeCursor (toDate row.createdAt) row.seq).map fun text => pageWith now query limit snap
    ((now.order (now.rows query snap pos)).take limit) (some text) := by
  have hn : limit < ((now.order (now.rows query snap pos)).take (limit + 1)).length := by
    rw [length_take]
    omega
  have ht : ((now.order (now.rows query snap pos)).take (limit + 1)).take limit =
      (now.order (now.rows query snap pos)).take limit := by
    rw [take_take,Nat.min_eq_left (Nat.le_succ limit)]
  have hl : ((now.order (now.rows query snap pos)).take limit).getLast? = some row := by
    rw [getLast?_eq_getElem?,length_take,Nat.min_eq_left h.le,getElem?_take_of_lt (by omega),hr]
  simp only [pageAt,decide_eq_true hn,if_true,ht,cursorAfter,hl]
  cases encodeCursor (toDate row.createdAt) row.seq with
  | none => rfl
  | some => rfl

lemma servePage_first (R now) (query : Query) : servePage R now query.first =
    pageAt now query (parseLimit query.limit) (maxSeq now.table) none := rfl

lemma servePage_next (hR : R.Documented) {p : Page} {row : Row} {t}
    (ht : encodeCursor (toDate row.createdAt) row.seq = some t)
    (hc : p.nextCursor = some t) (hp : p.snapshotSeq = bigIntToString snap)
    (hs : snap ≠ 0) : servePage R now (query.next p) = (positionOf row.key).bind fun c =>
    pageAt now query (parseLimit query.limit) snap (some (ofLex c)) := by
  simp only [servePage,Query.next,hc,hp,parseKeysetParams_encodeCursor hR ht,bind_eq_bind,
    bind_some,decodeCursor_encodeCursor hR ht,map_some,if_neg hs,seekPosition_eq hR ht]
  cases positionOf row.key with
  | none => rfl
  | some => rfl

end

/-! ### Tables that grow -/

section
variable {ms : Nat → Moment} {query : Query} {snap : Int} {i : Nat}

lemma le_maxSeq {table row} (h : row ∈ table) : row.seq ≤ maxSeq table := by
  induction table with
  | nil => cases h
  | cons r table ih =>
    rw [maxSeq,map_cons,foldr_cons]
    rcases mem_cons.mp h with rfl | h
    · exact le_max_left _ _
    · exact (ih h).trans (le_max_right _ _)

lemma maxSeq_lt {tbl n} (hp : 0 < n) (h : ∀ row ∈ tbl, row.seq < n) : maxSeq tbl < n := by
  induction tbl with
  | nil => exact hp
  | cons r tbl ih =>
    rw [maxSeq,map_cons,foldr_cons]
    exact max_lt (h r mem_cons_self) (ih fun row hr => h row (mem_cons_of_mem _ hr))

lemma maxSeq_nonneg (table) : 0 ≤ maxSeq table := by
  induction table with
  | nil => exact le_refl 0
  | cons r table ih =>
    rw [maxSeq,map_cons,foldr_cons]
    exact ih.trans (le_max_right _ _)

lemma maxSeq_mono {table table'} (h : ∀ row ∈ table, row ∈ table') :
    maxSeq table ≤ maxSeq table' := by
  induction table with
  | nil => exact maxSeq_nonneg table'
  | cons r table ih =>
    rw [maxSeq,map_cons,foldr_cons]
    exact max_le (le_maxSeq (h r mem_cons_self)) (ih fun row hr => h row (mem_cons_of_mem _ hr))

lemma Grows.maxSeq_le (hg : Grows ms) : maxSeq (ms i).table ≤ maxSeq (ms (i + 1)).table := by
  obtain ⟨_,hp,-⟩ := hg i
  exact maxSeq_mono fun row hr => hp.mem_iff.mpr (mem_append_left _ hr)

lemma Grows.filter_perm (hg : Grows ms) (hs : snap ≤ maxSeq (ms i).table)
    {p} (hp : ∀ row, p row = true → row.seq ≤ snap) :
    ((ms (i + 1)).table.filter p).Perm ((ms i).table.filter p) := by
  obtain ⟨added,hm,hw⟩ := hg i
  have ha : added.filter p = [] := by
    rw [filter_eq_nil_iff]
    intro row hr hpr
    have ht := maxSeq_lt row.seq_pos (hw row hr)
    have hl := hp row hpr
    omega
  have hf := hm.filter p
  rw [filter_append,ha,append_nil] at hf
  exact hf

lemma visible_seq_le {row} (h : query.visible snap row = true) : row.seq ≤ snap := by
  rw [Query.visible,Bool.and_eq_true,decide_eq_true_eq] at h
  exact h.2

lemma snapshot_ne_zero {now : Moment} {pos row} (h : row ∈ now.rows query snap pos) : snap ≠ 0 := by
  have hl := visible_seq_le (Bool.and_eq_true _ _ |>.mp (mem_filter.mp h).2).1
  have hp := row.seq_pos
  omega

end

/-! ### Following the cursors -/

section
variable {R : Runtime} {ms : Nat → Moment} {query : Query}

structure Stands (R : Runtime) (moments : Nat → Moment) (query : Query) (snapshot : Int) (i : Nat)
    (position : Option (Int × Int)) (request : Request) : Prop where
  borrower : request.borrower = query.borrower
  serve : servePage R (moments i) request =
    pageAt (moments i) query (parseLimit query.limit) snapshot position
  pinned : snapshot ≤ maxSeq (moments i).table

variable {snap : Int} {i : Nat} {pos : Option (Int × Int)} {request : Request}

lemma stands_first : Stands R ms query (maxSeq (ms 0).table) 0 none query.first :=
  ⟨rfl,servePage_first R (ms 0) query,le_refl _⟩

lemma Stands.follow_succ (h : Stands R ms query snap i pos request) (fuel) :
    follow R ms query (fuel + 1) i request =
    (pageAt (ms i) query (parseLimit query.limit) snap pos).bind fun pg =>
    if pg.nextCursor.isNone then some [pg]
    else (follow R ms query fuel (i + 1) (query.next pg)).map (pg :: ·) := by
  have hn : request.borrower ≠ [] := h.borrower ▸ query.named
  rw [follow,getBorrowerEvents,if_neg hn,h.serve]
  cases pageAt (ms i) query (parseLimit query.limit) snap pos with
  | none => rfl
  | some => rfl

lemma Stands.rows_next (hw : Grows ms) (h : Stands R ms query snap i pos request) {row c}
    (hr : row ∈ (ms i).rows query snap pos) (hc : c ≤ row.key) :
    ((ms (i + 1)).rows query snap (some (ofLex c))).Perm
    (((ms i).rows query snap pos).filter fun row => row.key < c) := by
  have hg : ((ms (i + 1)).rows query snap (some (ofLex c))).Perm
      ((ms i).rows query snap (some (ofLex c))) :=
    hw.filter_perm h.pinned fun row hr =>
      visible_seq_le (Bool.and_eq_true _ _ |>.mp hr).1
  have hs : (ms i).rows query snap (some (ofLex c)) =
      ((ms i).rows query snap pos).filter fun row => row.key < c := by
    rw [Moment.rows,Moment.rows,List.filter_filter]
    refine List.filter_congr fun ltr _ => ?_
    rw [Bool.eq_iff_iff,Bool.and_eq_true,Bool.and_eq_true,Bool.and_eq_true,decide_eq_true_eq,
      seeks_some_iff,toLex_ofLex]
    have hsg := (Bool.and_eq_true _ _ |>.mp (List.mem_filter.mp hr).2).2
    constructor
    · rintro ⟨hv,hl⟩
      exact ⟨hl,hv,seeks_of_lt hsg (hl.trans_le hc)⟩
    · rintro ⟨hl,hv,-⟩
      exact ⟨hv,hl⟩
  exact hs ▸ hg

variable (hR : R.Documented)

include hR

lemma Stands.next (hg : Grows ms)
    (h : Stands R ms query snap i pos request) {row t its} (hr : row ∈ (ms i).rows query snap pos)
    (ht : encodeCursor (toDate row.createdAt) row.seq = some t) {c}
    (hc : positionOf row.key = some c) : Stands R ms query snap (i + 1) (some (ofLex c))
    (query.next (pageWith (ms i) query (parseLimit query.limit) snap its (some t))) := by
  refine ⟨rfl,?_,h.pinned.trans hg.maxSeq_le⟩
  rw [servePage_next hR ht rfl rfl (snapshot_ne_zero hr),hc]
  rfl

lemma follow_eq_none {row t its} (hr : row ∈ (ms i).rows query snap pos)
    (ht : encodeCursor (toDate row.createdAt) row.seq = some t)
    (hc : positionOf row.key = none) (fuel j) :
    follow R ms query fuel j (query.next (pageWith (ms i) query (parseLimit query.limit)
    snap its (some t))) = none := by
  cases fuel with
  | zero => rfl
  | succ =>
    have hn : (query.next (pageWith (ms i) query (parseLimit query.limit) snap its
      (some t))).borrower ≠ [] := query.named
    rw [follow,getBorrowerEvents,if_neg hn,servePage_next hR ht rfl rfl (snapshot_ne_zero hr),hc]
    rfl

lemma Stands.follow_cases (h : Stands R ms query snap i pos request) {fuel ps}
    (hf : follow R ms query (fuel + 1) i request = some ps) :
    let answer := (ms i).order ((ms i).rows query snap pos)
    let page := pageWith (ms i) query (parseLimit query.limit) snap
    (answer.length ≤ parseLimit query.limit ∧ ps = [page answer none]) ∨
      ∃ row text c rest, parseLimit query.limit < answer.length ∧
        answer[parseLimit query.limit - 1]? = some row ∧
        row ∈ (ms i).rows query snap pos ∧
        encodeCursor (toDate row.createdAt) row.seq = some text ∧ positionOf row.key = some c ∧
        follow R ms query fuel (i + 1)
          (query.next (page (answer.take (parseLimit query.limit)) (some text))) = some rest ∧
        ps = page (answer.take (parseLimit query.limit)) (some text) :: rest := by
  intro answer page
  have ho := (ms i).ordered ((ms i).rows query snap pos)
  rw [h.follow_succ] at hf
  rcases Nat.lt_or_ge (parseLimit query.limit) answer.length with ht | he
  · have hl : parseLimit query.limit - 1 < answer.length := by omega
    have hr : answer[parseLimit query.limit - 1]? = some answer[parseLimit query.limit - 1] :=
      getElem?_eq_getElem hl
    have hm := ho.perm.mem_iff.mp (getElem_mem hl)
    rw [pageAt_of_lt (parseLimit_pos _) ht hr] at hf
    cases hx : encodeCursor (toDate answer[parseLimit query.limit - 1].createdAt)
        answer[parseLimit query.limit - 1].seq with
    | none =>
      rw [hx] at hf
      cases hf
    | some text =>
      rw [hx,map_some,bind_some] at hf
      obtain ⟨rest,hre,rfl⟩ := map_eq_some_iff.mp hf
      cases hc : positionOf answer[parseLimit query.limit - 1].key with
      | none =>
        rw [follow_eq_none hR hm hx hc] at hre
        cases hre
      | some c => exact .inr ⟨_,text,c,rest,ht,hr,hm,hx,hc,hre,rfl⟩
  · rw [pageAt_of_le he] at hf
    cases hf
    exact .inl ⟨he,rfl⟩

lemma Stands.walk (hg : Grows ms) {fuel ps} (h : Stands R ms query snap i pos request)
    (hf : follow R ms query fuel i request = some ps) :
    Walk Row.key positionOf (parseLimit query.limit) ((ms i).rows query snap pos)
    (ps.map Page.items) := by
  induction fuel generalizing i pos request ps with
  | zero => cases hf
  | succ fuel ih =>
    have ho := (ms i).ordered ((ms i).rows query snap pos)
    obtain ⟨hl,rfl⟩ | ⟨_,_,_,_,ht,hr,hm,hx,hc,he,rfl⟩ := h.follow_cases hR hf
    · exact .last ho hl
    · have hw := ih (h.next hR hg hm hx hc) he
      exact .next ho ht hr hc (hw.of_perm (h.rows_next hg hm (positionOf_le _ _ hc)))

lemma Stands.pages (hg : Grows ms) {fuel ps} (h : Stands R ms query snap i pos request)
    (hf : follow R ms query fuel i request = some ps) :
    ∀ pg ∈ ps, pg.snapshotSeq = bigIntToString snap ∧
    pg.totalAtSnapshot = ((ms i).table.filter (query.visible snap)).length := by
  induction fuel generalizing i pos request ps with
  | zero => cases hf
  | succ fuel ih =>
    obtain ⟨-,rfl⟩ | ⟨row,_,_,_,-,-,hm,hx,hc,hr,rfl⟩ := h.follow_cases hR hf
    · intro pg hp
      rw [mem_singleton.mp hp]
      exact ⟨rfl,rfl⟩
    · intro pg hp
      rcases mem_cons.mp hp with rfl | hp
      · exact ⟨rfl,rfl⟩
      have ht : ((ms (i + 1)).table.filter (query.visible snap)).Perm
          ((ms i).table.filter (query.visible snap)) :=
        hg.filter_perm h.pinned fun row => visible_seq_le
      rw [← ht.length_eq]
      exact ih (h.next hR hg hm hx hc) hr pg hp

lemma Stands.terminates (hg : Grows ms) {fuel} (h : Stands R ms query snap i pos request)
    (hfuel : ((ms i).rows query snap pos).length < fuel)
    (hs : Separated positionOf (parseLimit query.limit)
    (rankedKeys Row.key ((ms i).rows query snap pos))) :
    ∃ pages, follow R ms query fuel i request = some pages := by
  induction fuel generalizing i pos request with
  | zero => omega
  | succ fuel ih =>
    have ho := (ms i).ordered ((ms i).rows query snap pos)
    rw [h.follow_succ]
    rcases Nat.lt_or_ge (parseLimit query.limit)
      ((ms i).order ((ms i).rows query snap pos)).length with hl | hle
    · obtain ⟨_,_,hr,hc,hp,hre⟩ := hs.next positionOf_le (parseLimit_pos _) ho hl
      have hm := ho.perm.mem_iff.mp (mem_of_getElem? hr)
      obtain ⟨_,ht⟩ := exists_encodeCursor hc
      have hn := h.rows_next hg hm (positionOf_le _ _ hc)
      rw [← rankedKeys_congr hn] at hre
      obtain ⟨_,hf⟩ := ih (h.next hR hg hm ht hc) (by
        have hlim := parseLimit_pos query.limit
        have hrs := ho.perm.length_eq
        rw [hn.length_eq,hp.length_eq,length_drop]
        omega) hre
      rw [pageAt_of_lt (parseLimit_pos _) hl hr,ht]
      exact ⟨_,congrArg (Option.map _) hf⟩
    · rw [pageAt_of_le hle]
      exact ⟨_,rfl⟩

end

/-! ### The list as a whole -/

section
variable {R : Runtime} {ms : Nat → Moment} {query : Query}

lemma Grows.pinned (hg : Grows ms) (i) :
    ((ms i).table.filter (query.visible (maxSeq (ms 0).table))).Perm
    ((ms 0).table.filter (query.visible (maxSeq (ms 0).table))) := by
  have hl : ∀ i, maxSeq (ms 0).table ≤ maxSeq (ms i).table := by
    intro i
    induction i with
    | zero => exact le_refl _
    | succ i ih => exact ih.trans hg.maxSeq_le
  induction i with
  | zero => exact List.Perm.refl _
  | succ i ih => exact (hg.filter_perm (hl i) fun row => visible_seq_le).trans ih

lemma visible_first (tbl : List Row) :
    tbl.filter (query.visible (maxSeq tbl)) = tbl.filter query.admits := by
  refine filter_congr fun row hr => ?_
  rw [Query.visible,decide_eq_true (le_maxSeq hr),Bool.and_true]

lemma rows_first (now : Moment) :
    now.rows query (maxSeq now.table) none = now.table.filter query.admits := by
  rw [← visible_first,Moment.rows]
  refine filter_congr fun row _ => ?_
  rw [seeks,Bool.and_true]

lemma flatMap_items (ps : List Page) :
    ps.flatMap Page.items = (ps.map Page.items).flatten := flatMap_def ..

lemma lossless_of_separated (hR : R.Documented) (hg : Grows ms)
    (hs : Separated positionOf (parseLimit query.limit)
    (rankedKeys Row.key ((ms 0).table.filter query.admits))) : Lossless R ms query := by
  have ht : Stands R ms query (maxSeq (ms 0).table) 0 none query.first := stands_first
  rw [← rows_first] at hs
  obtain ⟨pgs,hf⟩ := ht.terminates hR hg (Nat.lt_succ_self _) hs
  have ho := (ht.walk hR hg hf).ordered positionOf_le (parseLimit_pos _) hs
  rw [rows_first,← visible_first,← flatMap_items] at ho
  refine ⟨_,pgs,maxSeq (ms 0).table,hf,fun pg hp => ?_,fun i => ho.of_perm (hg.pinned i).symm⟩
  rw [ho.perm.length_eq]
  exact ht.pages hR hg hf pg hp

lemma separated_of_lossless (hR : R.Documented) (hg : Grows ms)
    (h : Lossless R ms query) : Separated positionOf (parseLimit query.limit)
    (rankedKeys Row.key ((ms 0).table.filter query.admits)) := by
  have hs : Stands R ms query (maxSeq (ms 0).table) 0 none query.first := stands_first
  obtain ⟨_,pgs,_,hf,hp,_⟩ := h
  have hw := hs.walk hR hg hf
  rw [rows_first] at hw
  refine hw.separated positionOf_le (parseLimit_pos _) ?_
  -- the first page has counted the rows
  obtain ⟨pg,rest,rfl⟩ : ∃ pg rest, pgs = pg :: rest := by
    cases pgs with
    | nil => cases hw
    | cons pg rest => exact ⟨pg,rest,rfl⟩
  have hc := (hp pg mem_cons_self).2
  rw [(hs.pages hR hg hf pg mem_cons_self).2,visible_first] at hc
  rw [← flatMap_items,hc]

/-- **Keyset paging.** Following the cursors gives every row exactly once if and only if, at the end
of every full page but the last, the database reads the date of the last row, and the next row comes
before the last row with its time cut to milliseconds. -/
theorem lossless_iff (R : Runtime) (hR : R.Documented) (moments : Nat → Moment)
    (hgrows : Grows moments) (query : Query) :
    Lossless R moments query ↔ Separated positionOf (parseLimit query.limit)
      (rankedKeys Row.key ((moments 0).table.filter query.admits)) :=
  ⟨separated_of_lossless hR hgrows,lossless_of_separated hR hgrows⟩

end

private def event (seq : Int) (time : Int) (hseq : 0 < seq) : Row where
  id := 0
  eventId := []
  eventType := []
  loanId := none
  address := some ['G']
  amount := none
  ledger := none
  ledgerClosedAt := 0
  txHash := []
  createdAt := 1767225600000000 + time
  seq := seq
  seq_pos := hseq

private def still (table : List Row) : Moment where
  table := table
  order rows := rows.insertionSort fun row later => later.key ≤ row.key
  ordered _ := ⟨List.perm_insertionSort _ _,List.pairwise_insertionSort _ _⟩

lemma still_grows (table) : Grows fun _ => still table :=
  fun _ => ⟨[],.of_eq (append_nil table).symm,fun _ h => (by cases h)⟩

private def oneByOne : Query :=
  ⟨['G'],List.cons_ne_nil _ _,⟨none,none,none,none⟩,some ['1']⟩

/-- Two events that were stored a millisecond apart. -/
theorem lossless_apart :
    Lossless Runtime.plain (fun _ => still [event 1 123456 (by decide),event 2 124456 (by decide)])
    oneByOne :=
  (lossless_iff Runtime.plain plain_documented _ (still_grows _) oneByOne).mpr (by decide +kernel)

/-- **Two events of one transaction** have the same time. The cursor after the first is cut to
milliseconds, and the second is not before it. -/
theorem event_skipped : ¬ ∀ (R : Runtime), R.Documented → ∀ moments, Grows moments → ∀ query,
    Lossless R moments query := by
  intro h
  have hl := h Runtime.plain plain_documented
    (fun _ => still [event 1 123456 (by decide),event 2 123456 (by decide)]) (still_grows _)
    oneByOne
  have hs := separated_of_lossless plain_documented (still_grows _) hl
  revert hs
  decide +kernel

end DukaPay.Backend.Paging
