import DukaPay.Backend.Poll

/-! Chains, and an RPC that serves one: a chain fixes the events of the indexer's contracts ledger
by ledger. -/
namespace DukaPay.Backend
open Contractlib List

structure Chain (ScVal : Type) (contractIds : List String) extends
    Timeline (SorobanRawEvent ScVal) SorobanRawEvent.ledger where
  contract_mem : ∀ ledger, ∀ event ∈ eventsAt ledger, event.contractId ∈ contractIds

def Serves {ScVal : Type} (endLedger : Nat) :
    Option String → List (SorobanRawEvent ScVal) → List (Page ScVal) → Prop
  | _,_,[] => True
  | cursor,left,page :: pages => ∃ rest, left = page.events ++ rest ∧
    match page.nextCursor with
    | none => ∀ event ∈ rest, endLedger < event.ledger
    | some nextCursor =>
      (nextCursor = "" ∨ some nextCursor = cursor ∨ page.events = [] →
        ∀ event ∈ rest, endLedger < event.ledger) ∧
      Serves endLedger (some nextCursor) rest pages

section
variable {ScVal : Type} {contractIds : List String} (chain : Chain ScVal contractIds)

def Chain.Answers : Request → Answer ScVal → Prop
  | .events startLedger endLedger,answer => ∃ horizon, endLedger ≤ horizon ∧
    Serves endLedger none (chain.between startLedger horizon) answer.pages
  | _,_ => True

end

section
variable {ScVal : Type} {lo hi : Nat}

lemma collectPages_serves {c} {left evs : List (SorobanRawEvent ScVal)}
    {ps} (hsr : Serves hi c left ps) (hso : left.Pairwise fun a b => a.ledger ≤ b.ledger)
    (ha : ∀ ev ∈ left, lo ≤ ev.ledger)
    (h : collectPages lo hi c ps = some evs) :
    evs = left.filter fun ev => ev.ledger ≤ hi := by
  induction ps generalizing c left evs with
  | nil => cases h
  | cons pg ps ih =>
    obtain ⟨_,rfl,hp⟩ := hsr
    rw [pairwise_append] at hso
    obtain ⟨-,hr,hb⟩ := hso
    rw [forall_mem_append] at ha
    -- an honest page has nothing from before the range
    have hev : (pg.events.filter fun ev =>
        lo ≤ ev.ledger ∧ ev.ledger ≤ hi) = pg.events.filter fun ev => ev.ledger ≤ hi :=
      filter_congr fun ev hv => by simp [ha.1 ev hv]
    rw [collectPages,hev] at h
    cases hx : pg.nextCursor with
    | none =>
      rw [hx] at h hp
      cases h
      exact (filter_append_of_passed hp).symm
    | some =>
      rw [hx] at h hp
      obtain ⟨hl,hg⟩ := hp
      simp only at h
      split at h
      · next ht =>
        cases h
        refine (filter_append_of_passed ?_).symm
        rcases ht with he | hs | hn | hps
        · exact hl (.inl he)
        · exact hl (.inr (.inl hs))
        · -- no event of the page is in the range: there is none, or it is beyond the end
          cases hpa : pg.events with
          | nil => exact hl (.inr (.inr hpa))
          | cons first =>
            intro ev hv
            have hm : first ∈ pg.events := hpa ▸ mem_cons_self ..
            have hf := filter_eq_nil_iff.mp hn first hm
            rw [decide_eq_true_eq,not_le] at hf
            exact hf.trans_le (hb first hm ev hv)
        · obtain ⟨last,hm,hps⟩ := any_eq_true.mp hps
          intro ev hv
          exact (of_decide_eq_true hps).trans_le (hb last hm ev hv)
      · rw [Option.map_eq_some_iff] at h
        obtain ⟨_,ho,rfl⟩ := h
        rw [ih hg hr ha.2 ho,filter_append]

lemma eventsOfPages_serves {contractIds} {chain : Chain ScVal contractIds} {a : Answer ScVal} {evs}
    (ha : chain.Answers (.events lo hi) a)
    (h : eventsOfPages lo hi a.pages = some evs) :
    evs = chain.between lo hi := by
  obtain ⟨ho,hl,hs⟩ := ha
  rw [eventsOfPages,Option.map_eq_some_iff] at h
  obtain ⟨_,hc,rfl⟩ := h
  have ht : ∀ ev ∈ chain.between lo ho, lo ≤ ev.ledger :=
    fun ev he => (Timeline.mem_between.mp he).1.1
  rw [collectPages_serves hs Timeline.pairwise_between ht hc,Timeline.filter_between hl]
  exact List.Pairwise.insertionSort_eq Timeline.pairwise_between

/-! ### An RPC that answers page by page -/

/-- A page of the events left: from one that is not empty, a new cursor leads on. -/
structure Page.Follows (limit : Nat) (cursor : Option String) (left rest : List (SorobanRawEvent ScVal))
    (page : Page ScVal) : Prop where
  events : left = page.events ++ rest
  length_le : page.events.length ≤ limit
  nextCursor : page.events ≠ [] →
    ∃ next, page.nextCursor = some next ∧ next ≠ "" ∧ some next ≠ cursor

/-- The answers to requests with a cursor, up to the first empty one: then nothing is left. -/
def Paged (limit : Nat) : Option String → List (SorobanRawEvent ScVal) → List (Page ScVal) → Prop
  | _,_,[] => False
  | cursor,left,page :: pages => ∃ rest, page.Follows limit cursor left rest ∧
    (page.events = [] → rest = [] ∧ pages = []) ∧
    (page.events ≠ [] → Paged limit page.nextCursor rest pages)

/-- The answers to a request for a range, whose first page is of the range only. -/
def PagedRange (limit startLedger endLedger : Nat) (stream : List (SorobanRawEvent ScVal)) :
    List (Page ScVal) → Prop
  | [] => False
  | page :: pages => ∃ rest,
    page.Follows limit none (stream.filter (startLedger ≤ ·.ledger)) rest ∧
    (∀ event ∈ page.events, event.ledger ≤ endLedger) ∧
    (page.events = [] → (∀ event ∈ rest, endLedger < event.ledger) ∧ pages = []) ∧
    (page.events ≠ [] → Paged limit page.nextCursor rest pages)

variable (lo hi) {limit : Nat} {c : Option String} {left rest : List (SorobanRawEvent ScVal)}
  {pg : Page ScVal} {ps : List (Page ScVal)}

/-- One page: it ends the answers, or the pages after it are served and collected. -/
lemma Page.Follows.serves (h : pg.Follows limit c left rest)
    (hn : pg.events = [] → (∀ ev ∈ rest, hi < ev.ledger) ∧ ps = [])
    (hs : ∀ next, pg.nextCursor = some next → pg.events ≠ [] → Serves hi (some next) rest ps ∧
    ∃ evs, collectPages lo hi (some next) ps = some evs) :
    Serves hi c left (pg :: ps) ∧
    ∃ evs, collectPages lo hi c (pg :: ps) = some evs := by
  by_cases he : pg.events = []
  · obtain ⟨hr,rfl⟩ := hn he
    refine ⟨⟨rest,h.events,?_⟩,[],?_⟩
    · cases pg.nextCursor with
      | none => exact hr
      | some => exact ⟨fun _ => hr,trivial⟩
    · cases hc : pg.nextCursor <;> simp [collectPages,he,hc]
  obtain ⟨next,hx,hne,hnc⟩ := h.nextCursor he
  obtain ⟨hr,evs,hc⟩ := hs next hx he
  refine ⟨⟨rest,h.events,?_⟩,?_⟩
  · simp only [hx]
    exact ⟨fun ht => by simp_all,hr⟩
  · simp only [collectPages,hx,hc]
    split <;> exact ⟨_,rfl⟩

lemma Paged.serves (h : Paged limit c left ps) : Serves hi c left ps ∧
    ∃ evs, collectPages lo hi c ps = some evs := by
  induction ps generalizing c left with
  | nil => cases h
  | cons pg ps ih =>
    obtain ⟨rest,hf,hn,hs⟩ := h
    refine hf.serves _ _ (fun he => ?_) fun next hx he => ih (hx ▸ hs he)
    obtain ⟨rfl,hp⟩ := hn he
    exact ⟨by simp,hp⟩

/-- **Ranged fetch**: it ends, with exactly the events of the range in their order. -/
theorem range_fetched {ScVal : Type} (limit startLedger endLedger : Nat)
    (stream : List (SorobanRawEvent ScVal)) (pages : List (Page ScVal))
    (hsorted : stream.Pairwise fun a b => a.ledger ≤ b.ledger)
    (hpages : PagedRange limit startLedger endLedger stream pages) :
    eventsOfPages startLedger endLedger pages =
      some (stream.filter fun event => startLedger ≤ event.ledger ∧ event.ledger ≤ endLedger) := by
  cases pages with
  | nil => cases hpages
  | cons pg ps =>
    obtain ⟨rest,hf,-,hn,hs⟩ := hpages
    obtain ⟨hs,evs,hc⟩ := hf.serves startLedger endLedger hn
      fun next hx he => (hx ▸ hs he : Paged limit (some next) rest ps).serves _ _
    have hl := hsorted.filter (startLedger ≤ ·.ledger)
    have he := collectPages_serves hs hl (by simp) hc
    have hf : evs = stream.filter fun ev => startLedger ≤ ev.ledger ∧ ev.ledger ≤ endLedger := by
      rw [he,filter_filter]
      exact filter_congr fun ev _ => by simp [Bool.and_comm]
    rw [eventsOfPages,hc,Option.map_some,hf]
    exact congrArg some (hsorted.filter _).insertionSort_eq

def eventAt (ledger : Nat) : SorobanRawEvent Unit := ⟨"",[],(),ledger,"","",""⟩

/-- Pages of at most two events, of which the second one passes the end of the range. -/
def crossingPages : List (Page Unit) :=
  [⟨[eventAt 2,eventAt 2],some "1"⟩,⟨[eventAt 3,eventAt 5],some "2"⟩,⟨[eventAt 6],some "3"⟩,
    ⟨[],some "3"⟩]

theorem range_fetched_crossing :
    eventsOfPages 2 3 crossingPages = some [eventAt 2,eventAt 2,eventAt 3] :=
  range_fetched 2 2 3 [eventAt 1,eventAt 2,eventAt 2,eventAt 3,eventAt 5,eventAt 6] crossingPages
    (by decide) ⟨[eventAt 3,eventAt 5,eventAt 6],⟨rfl,by decide,fun _ => ⟨"1",rfl,by decide⟩⟩,
      by decide,nofun,fun _ => ⟨[eventAt 6],⟨rfl,by decide,fun _ => ⟨"2",rfl,by decide⟩⟩,nofun,
      fun _ => ⟨[],⟨rfl,by decide,fun _ => ⟨"3",rfl,by decide⟩⟩,nofun,
      fun _ => ⟨[],⟨rfl,by decide,fun h => absurd rfl h⟩,fun _ => ⟨rfl,rfl⟩,
      fun h => absurd rfl h⟩⟩⟩⟩

end

variable {ScVal : Type} (ix : Indexer ScVal) (chain : Chain ScVal ix.contractIds)

def Chain.Parsed (event : ContractEvent) : Prop :=
  ∃ raw ∈ chain.eventsAt event.ledger, parseEvent ix.rt raw = .ok (some event)

def Chain.HasRow (row : EventRow) : Prop :=
  ∃ event, chain.Parsed ix event ∧ eventRow ix.pg event = .ok row

def Chain.Separate : Prop :=
  ∀ row row', chain.HasRow ix row → chain.HasRow ix row' → Conflicts row row' → row = row'

/-- The table has exactly the rows of the parsed events of the ledgers after `low` and up to `high`. -/
structure Mirrors (low high : Nat) (db : Database) : Prop where
  complete : ∀ event, chain.Parsed ix event → low < event.ledger → event.ledger ≤ high →
    ∃ row ∈ db.contractEvents.rows, eventRow ix.pg event = .ok row
  sound : ∀ row ∈ db.contractEvents.rows, low < row.ledger → row.ledger ≤ high → chain.HasRow ix row

variable {ix chain}

lemma mem_parsedEvents {rt : Runtime ScVal} {evs : List (SorobanRawEvent ScVal)}
    {ev : ContractEvent} :
    ev ∈ parsedEvents rt evs ↔ ∃ raw ∈ evs, parseEvent rt raw = .ok (some ev) := by
  rw [parsedEvents,mem_filterMap]
  refine exists_congr fun raw => and_congr_right fun _ => ?_
  cases parseEvent rt raw with
  | error => simp
  | ok => simp

lemma Chain.mem_parsedEvents_between {lo hi : Nat} {event : ContractEvent} :
    event ∈ parsedEvents ix.rt (chain.between lo hi) ↔
    (lo ≤ event.ledger ∧ event.ledger ≤ hi) ∧ chain.Parsed ix event := by
  rw [mem_parsedEvents]
  constructor
  · rintro ⟨raw,hw,hp⟩
    obtain ⟨hr,hw⟩ := Timeline.mem_between.mp hw
    rw [← (parseEvent_source hp).2.1] at hr hw
    exact ⟨hr,raw,hw,hp⟩
  · rintro ⟨hr,raw,hw,hp⟩
    have hl := (parseEvent_source hp).2.1
    rw [hl] at hr hw
    exact ⟨raw,Timeline.mem_between.mpr ⟨hr,hw⟩,hp⟩

end DukaPay.Backend
