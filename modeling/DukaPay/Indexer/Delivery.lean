import DukaPay.Indexer.Pipeline

/-! A checkpoint stands for the events up to its ledger being emitted, from the ledger on at which
the very first fetcher began. -/
namespace DukaPay.Indexer
open Contractlib Setting List
variable {Value : Type}

abbrev Chain (Value : Type) := Timeline (RawEvent Value) RawEvent.ledger

def PagesOf (tip : Nat) : List (RawEvent Value) → List (Page Value) → Prop
  | _,[] => True
  | left,page :: pages => ∃ rest, left = page.events ++ rest ∧
    (page.events = [] → ∀ ev ∈ rest, tip < ev.ledger) ∧ PagesOf tip rest pages

def Served (chain : Chain Value) : Request Value → Answer Value → Prop
  | .getEvents startLedger tip _,answer => ∃ horizon, tip ≤ horizon ∧
    PagesOf tip (chain.between startLedger horizon) answer.pages
  | _,_ => True

def Kept (cfg : Config) (chain : Chain Value) (s : Store Value) :
    Request Value → Answer Value → Prop
  | .latestLedger true,answer => ∀ first, s.firstStart = some first →
    ∀ tip, answer.latest = some tip → tip - cfg.finalityDepth ≤ first
  | .getEvents startLedger tip _,answer =>
    (chain.between startLedger (tip - cfg.finalityDepth)).length ≤ cfg.batchSize * 4 ∧
      ∀ page ∈ answer.pages, page.events ≠ [] → page.cursor ≠ none
  | _,_ => True

def Emitted (cfg : Config) (raw : RawEvent Value) (s : Store Value) : Prop :=
  ∃ ev, decode raw cfg.shard = .ok ev ∧ ev ∈ s.emitted

def Delivered (cfg : Config) (chain : Chain Value) (first bound : Nat) (s : Store Value) : Prop :=
  ∀ ledger, first ≤ ledger → ledger < bound → ∀ raw ∈ chain.eventsAt ledger, Emitted cfg raw s

section

lemma collectEvents_eq {safeTip tip cap} (hsf : safeTip ≤ tip)
    {coll left evs : List (RawEvent Value)} {ps}
    (hp : PagesOf tip left ps) (hr : ∀ pg ∈ ps, pg.events ≠ [] → pg.cursor ≠ none)
    (hc : (coll ++ left.filter fun ev => ev.ledger ≤ safeTip).length ≤ cap)
    (h : collectEvents safeTip cap coll ps = some evs) : evs = coll ++ left.filter fun ev
    => ev.ledger ≤ safeTip := by
  induction ps generalizing coll left with
  | nil => cases h
  | cons pg ps ih =>
    obtain ⟨rest,rfl,he,hre⟩ := hp
    rw [forall_mem_cons] at hr
    rw [filter_append,← append_assoc] at hc ⊢
    -- when the loop stops, nothing up to the safe tip is left
    have hst : ∀ {stopped : List (RawEvent Value)},
        (rest.filter fun ev => ev.ledger ≤ safeTip) = [] →
        some (coll ++ pg.events.filter fun ev => ev.ledger ≤ safeTip) = some stopped →
        stopped = coll ++ (pg.events.filter fun ev => ev.ledger ≤ safeTip) ++
          rest.filter fun ev => ev.ledger ≤ safeTip := by
      intro stopped hnl hstp
      rw [hnl,append_nil]
      exact (Option.some.inj hstp).symm
    have hs : pg.events = [] → (rest.filter fun ev => ev.ledger ≤ safeTip) = [] := by
      intro hnl
      refine filter_eq_nil_iff.mpr fun ev hv hle => ?_
      exact absurd (of_decide_eq_true hle) (not_le.mpr (hsf.trans_lt (he hnl ev hv)))
    rw [collectEvents] at h
    cases hu : pg.cursor with
    | none =>
      rw [hu] at h
      exact hst (hs (by_contra fun hn => hr.1 hn hu)) h
    | some =>
      rw [hu] at h
      simp only at h
      split at h
      · exact ih hre hr.2 hc h
      · next hl =>
        refine hst ?_ h
        by_cases hnl : pg.events = []
        · exact hs hnl
        -- the cap is reached: all that there is has been collected
        have hf := not_lt.mp fun ht => hl ⟨hnl,ht⟩
        rw [length_append] at hc
        exact eq_nil_of_length_eq_zero (by omega)

end

section
variable {cfg : Config} {chain : Chain Value} {s s' s'' : Store Value} {first bound : Nat}

def Sound (cfg : Config) (chain : Chain Value) (s : Store Value) : Prop :=
  ∀ c, s.checkpoint = some c →
    ∃ first, s.firstStart = some first ∧ Delivered cfg chain first (c + 1) s

def Caught (cfg : Config) (chain : Chain Value) (next : Nat) (s : Store Value) : Prop :=
  ∃ first, s.firstStart = some first ∧ Delivered cfg chain first next s

structure Grown (s s' : Store Value) : Prop where
  checkpoint : s'.checkpoint = s.checkpoint
  firstStart : s'.firstStart = s.firstStart
  emitted : s.emitted ⊆ s'.emitted

lemma Grown.refl (s : Store Value) : Grown s s := ⟨rfl,rfl,fun _ h => h⟩

lemma Grown.trans (h : Grown s s') (h' : Grown s' s'') : Grown s s'' :=
  ⟨h'.1.trans h.1,h'.2.trans h.2,fun _ he => h'.3 (h.3 he)⟩

lemma Emitted.grown {raw} (h : Emitted cfg raw s) (hg : Grown s s') : Emitted cfg raw s' := by
  obtain ⟨ev,hd,he⟩ := h
  exact ⟨ev,hd,hg.emitted he⟩

lemma Delivered.grown (h : Delivered cfg chain first bound s) (hg : Grown s s') :
    Delivered cfg chain first bound s' :=
  fun lg hl hh raw hr => (h lg hl hh raw hr).grown hg

lemma Delivered.mono {bound'} (h : Delivered cfg chain first bound s)
    (hl : bound' ≤ bound) : Delivered cfg chain first bound' s :=
  fun lg ho hh => h lg ho (hh.trans_le hl)

lemma Sound.grown (h : Sound cfg chain s) (hg : Grown s s') : Sound cfg chain s' := by
  intro c hc
  obtain ⟨first,hf,hd⟩ := h c (hg.checkpoint ▸ hc)
  exact ⟨first,hg.firstStart.trans hf,hd.grown hg⟩

lemma Caught.grown {next} (h : Caught cfg chain next s) (hg : Grown s s') :
    Caught cfg chain next s' := by
  obtain ⟨first,hf,hd⟩ := h
  exact ⟨first,hg.firstStart.trans hf,hd.grown hg⟩

lemma nextLedger_le (n) : nextLedger n ≤ n + 1 := Nat.mod_le _ _

lemma Caught.next {n} (h : Caught cfg chain (n + 1) s) : Caught cfg chain (nextLedger n) s := by
  obtain ⟨first,hf,hd⟩ := h
  exact ⟨first,hf,hd.mono (nextLedger_le n)⟩

lemma sound_empty : Sound cfg chain Store.empty := fun _ hc => nomatch hc

lemma Sound.save {n} (h : Sound cfg chain s)
    (ha : Caught cfg chain (n + 1) s) : Sound cfg chain (s.save cfg n) := by
  obtain ⟨first,hf,hd⟩ := ha
  intro c hc
  refine ⟨first,hf,?_⟩
  show Delivered cfg chain first (c + 1) s
  simp only [Store.save] at hc
  cases hk : cfg.checkpoint with
  | file =>
    rw [hk] at hc
    cases hc
    exact hd
  | postgres =>
    rw [hk] at hc
    cases hl : s.checkpoint with
    | none =>
      rw [hl] at hc
      cases hc
      exact hd
    | some last =>
      rw [hl] at hc
      cases hc
      obtain ⟨_,hf',hb⟩ := h last hl
      cases hf.symm.trans hf'
      rcases le_total last n with he | he
      · rw [max_eq_right he]
        exact hd
      · rw [max_eq_left he]
        exact hb

end

section
variable {cfg : Config} {chain : Chain Value} {s s' : Store Value} {next : Nat}

def keeping (cfg : Config) (chain : Chain Value) :
    Setting (Request Value) (Answer Value) (Store Value) :=
  .alone (Sound cfg chain) fun s request answer =>
    Served chain request answer ∧ Kept cfg chain s request answer

lemma keeping_resume (h : Sound cfg chain s) :
    (keeping cfg chain).Ensures (fun next s' => Caught cfg chain next s')
    (resume cfg : Program Value Nat) s := by
  refine ensures_bind (alone_get h ?_)
  cases hp : s.checkpoint with
  | some cp => exact alone_pure (Caught.next (h cp hp))
  | none =>
    refine ensures_bind (alone_query fun ans ha => ?_)
    cases ht : ans.latest with
    | none => trivial
    | some tip =>
      refine ensures_bind (alone_modify fun s' hs' => ?_)
      cases hs'
      refine ⟨fun c hc => absurd (hp.symm.trans hc) (Option.some_ne_none c).symm,?_⟩
      refine alone_pure ⟨_,rfl,fun lg ho hh => ?_⟩
      -- it begins at the first start or before: nothing is in between
      have hl : tip - cfg.finalityDepth ≤ s.firstStart.getD (tip - cfg.finalityDepth) := by
        cases hf : s.firstStart with
        | none => exact le_rfl
        | some first => exact ha.2 first hf tip ht
      omega

variable (raw : RawEvent Value)

lemma keeping_emitAttempts (ats : Nat) (lastError : String) (h : Sound cfg chain s) :
    (keeping cfg chain).Ensures (fun error s' => Grown s s' ∧ (error = none → Emitted cfg raw s'))
    (emitAttempts cfg raw ats lastError) s := by
  induction ats generalizing lastError with
  | zero => exact alone_pure ⟨Grown.refl s,fun he => nomatch he⟩
  | succ n ih =>
    rw [emitAttempts]
    cases hd : decode raw cfg.shard with
    | error error => exact ih error
    | ok ev =>
      refine ensures_bind (alone_query fun ans _ => ?_)
      cases ans.emitError with
      | some error => exact ih error
      | none =>
        refine ensures_bind (alone_modify fun s' hs' => ?_)
        cases hs'
        have hg : Grown s { s with emitted := s.emitted ++ [ev] } :=
          ⟨rfl,rfl,subset_append_left _ _⟩
        refine ⟨h.grown hg,alone_pure ⟨hg,fun _ => ⟨ev,hd,?_⟩⟩⟩
        exact mem_append_right _ (mem_singleton_self ev)

lemma grown_push (error : String) (ats : Nat) (written : Bool) :
    Grown s (s.push raw error ats written) := by
  rw [Store.push]
  split
  · exact Grown.refl s
  split
  · exact ⟨rfl,rfl,fun _ h => h⟩
  · exact Grown.refl s

lemma keeping_processEvent (h : Sound cfg chain s) : (keeping cfg chain).Ensures
    (fun em s' => Grown s s' ∧ (em = true → Emitted cfg raw s')) (processEvent cfg raw) s := by
  refine ensures_bind ((keeping_emitAttempts raw _ _ h).mono fun error s1 hs1 => ?_)
  obtain ⟨hg,he⟩ := hs1
  cases error with
  | none => exact alone_pure ⟨hg,fun _ => he rfl⟩
  | some error =>
    refine ensures_bind (alone_query fun ans _ => ?_)
    refine ensures_bind (alone_modify fun s2 hs2 => ?_)
    cases hs2
    have hg2 := hg.trans
      (grown_push raw error (min (cfg.maxEventRetries + 1) u32Max) ans.deadLetterWritten)
    exact ⟨h.grown hg2,alone_pure ⟨hg2,fun hf => nomatch hf⟩⟩

lemma keeping_processBatch (evs : List (RawEvent Value)) (h : Sound cfg chain s) :
    (keeping cfg chain).Ensures
    (fun em s' => Grown s s' ∧ (em = true → ∀ raw ∈ evs, Emitted cfg raw s'))
    (processBatch cfg evs) s := by
  refine (alone_foldlM (fun rest ok s' => Grown s s' ∧ ∃ bef, evs = bef ++ rest ∧
    (ok = true → ∀ raw ∈ bef, Emitted cfg raw s')) (fun raw rest ok s1 hs1 => ?_)
    ⟨Grown.refl s,[],rfl,fun _ raw hr => absurd hr not_mem_nil⟩).mono
    fun ok s1 hs1 => ?_
  · obtain ⟨hg,bef,rfl,hb⟩ := hs1
    refine ensures_bind ((keeping_processEvent raw (h.grown hg)).mono fun em s2 hs2 => ?_)
    obtain ⟨hg2,hm⟩ := hs2
    refine alone_pure ⟨hg.trans hg2,bef ++ [raw],by simp,fun ho => ?_⟩
    rw [Bool.and_eq_true] at ho
    rw [forall_mem_append,forall_mem_singleton]
    exact ⟨fun e he => (hb ho.1 e he).grown hg2,hm ho.2⟩
  · obtain ⟨hg,bef,hq,hb⟩ := hs1
    rw [append_nil] at hq
    exact ⟨hg,hq ▸ hb⟩

lemma keeping_saveCheckpoint {through em} (h : Sound cfg chain s) (hc : Caught cfg chain next s)
    (ht : em = true → Caught cfg chain (through + 1) s) : (keeping cfg chain).Ensures
    (fun done s' => Caught cfg chain next s' ∧ (done = true → Caught cfg chain (through + 1) s'))
    (saveCheckpoint cfg through em) s := by
  rw [saveCheckpoint]
  cases em with
  | false => exact alone_pure ⟨hc,fun hf => nomatch hf⟩
  | true =>
    refine ensures_bind (alone_query fun ans _ => ?_)
    have hv := h.save (ht rfl)
    cases ans.save with
    | saved =>
      refine ensures_bind (alone_modify fun s' hs' => ?_)
      cases hs'
      exact ⟨hv,alone_pure ⟨hc,fun _ => ht rfl⟩⟩
    | failed => exact alone_pure ⟨hc,fun hf => nomatch hf⟩
    | unknown =>
      refine ensures_bind (alone_modify fun s' hs' => ?_)
      cases hs'
      exact ⟨hv,alone_pure ⟨hc,fun hf => nomatch hf⟩⟩

lemma collectEvents_kept {tip} {a : Answer Value} {coll}
    (hr : Served chain (.getEvents next tip cfg.batchSize) a)
    (hk : Kept cfg chain s (.getEvents next tip cfg.batchSize) a)
    (h : collectEvents (tip - cfg.finalityDepth) (cfg.batchSize * 4) [] a.pages = some coll) :
    coll = chain.between next (tip - cfg.finalityDepth) := by
  obtain ⟨_,hh,hp⟩ := hr
  obtain ⟨hb,hc⟩ := hk
  have hs : tip - cfg.finalityDepth ≤ tip := Nat.sub_le _ _
  rw [← Timeline.filter_between (hs.trans hh)] at hb ⊢
  exact collectEvents_eq hs hp hc hb h

lemma keeping_fetchRound (h : Sound cfg chain s) (hc : Caught cfg chain next s) :
    (keeping cfg chain).Ensures (fun next' s' => Caught cfg chain next' s')
    (fetchRound cfg next) s := by
  refine ensures_bind (alone_query fun ans _ => ?_)
  cases ans.latest with
  | none => exact alone_pure hc
  | some tip =>
    simp only
    split
    · exact alone_pure hc
    · next hx =>
      refine ensures_bind (alone_query fun ans ha => ?_)
      cases hev : collectEvents (tip - cfg.finalityDepth) (cfg.batchSize * 4) [] ans.pages with
      | none => exact alone_pure hc
      | some =>
        obtain rfl := collectEvents_kept ha.1 ha.2 hev
        refine ensures_bind ((keeping_processBatch _ h).mono fun em s1 hs1 => ?_)
        obtain ⟨hg,he⟩ := hs1
        have hc1 := hc.grown hg
        have ht : max ((chain.between next (tip - cfg.finalityDepth)).foldl
            (fun m ev => max m ev.ledger) next) (tip - cfg.finalityDepth) =
              tip - cfg.finalityDepth :=
          max_eq_right (foldl_max_le (not_lt.mp hx) fun ev hv =>
            (Timeline.mem_between.mp hv).1.2)
        rw [ht]
        have hu : em = true → Caught cfg chain (tip - cfg.finalityDepth + 1) s1 := by
          intro htr
          obtain ⟨first,hf,hd⟩ := hc1
          refine ⟨first,hf,fun lg ho hh raw hr => ?_⟩
          by_cases hb : lg < next
          · exact hd lg ho hb raw hr
          · refine he htr raw (Timeline.mem_between.mpr ?_)
            have hl := chain.time_eq lg raw hr
            rw [hl]
            exact ⟨⟨not_lt.mp hb,Nat.le_of_lt_succ hh⟩,hr⟩
        refine ensures_bind ((keeping_saveCheckpoint (h.grown hg) hc1 hu).mono
          fun done s2 hs2 => ?_)
        obtain ⟨hc2,hn⟩ := hs2
        split
        · next htr => exact alone_pure (hn htr).next
        · exact alone_pure hc2

end

section

def Answered (cfg : Config) (answers : Store Value → Request Value → Answer Value → Prop)
    (moves : List (Move (Answer Value) Empty)) : Prop :=
  (fetcher cfg).Legal (.alone (fun _ => True) answers) moves (resume cfg,Store.empty)

def stored (cfg : Config) (moves : List (Move (Answer Value) Empty)) : Store Value :=
  ((fetcher cfg).run moves (resume cfg,Store.empty)).2

/-- Along every run of the fetcher: if the RPC pages through the events of the contract and the
indexer keeps up, then every event from where the very first fetcher began up to a stored checkpoint
is in the sink. -/
theorem checkpoint_delivered (cfg : Config) (chain : Chain Value)
    (moves : List (Move (Answer Value) Empty))
    (h : Answered cfg (fun s request answer => Served chain request answer ∧
      Kept cfg chain s request answer) moves) : ∀ c, (stored cfg moves).checkpoint = some c →
      ∃ first, (stored cfg moves).firstStart = some first ∧
      ∀ raw ∈ chain.between first c, Emitted cfg raw (stored cfg moves) := by
  have hl : (fetcher cfg).Legal (keeping cfg chain) moves (resume cfg,Store.empty) :=
    System.Legal.inv h
  have hs : Sound cfg chain (stored cfg moves) :=
    (System.invariant_run (fun _ => keeping_resume) (fun _ _ => keeping_fetchRound) hl
      sound_empty (keeping_resume sound_empty)).1
  intro c hc
  obtain ⟨first,hf,hd⟩ := hs c hc
  refine ⟨first,hf,fun raw hr => ?_⟩
  obtain ⟨⟨ho,hh⟩,hm⟩ := Timeline.mem_between.mp hr
  exact hd raw.ledger ho (Nat.lt_succ_of_le hh) raw hm

end

def plainEvent (ledger : Nat) : RawEvent Unit where
  kind := "contract"
  ledger
  ledgerClosedAt := "2026-01-01T00:00:00Z"
  contractId := "CAAAAAAAAAAAAAAAAAAAAAAAAAAAAAAAAAAAAAAAAAAAAAAAAAAABSC4"
  id := toString ledger
  pagingToken := ""
  topic := ["AAAADwAAAApMb2FuUmVwYWlkAAA="]
  value := ()
  txHash := "tx"

def stretch (low high : Nat) : Chain Unit where
  eventsAt ledger := if low ≤ ledger ∧ ledger ≤ high then [plainEvent ledger] else []
  time_eq ledger raw hraw := by
    split at hraw
    · rw [List.mem_singleton.mp hraw]
      rfl
    · exact absurd hraw List.not_mem_nil

def singlePages (events : List (RawEvent Value)) : List (Page Value) :=
  events.map (fun ev => ⟨[ev],some ev.id⟩) ++ [⟨[],none⟩]

lemma pagesOf_singlePages (tip : Nat) (evs : List (RawEvent Value)) :
    PagesOf tip evs (singlePages evs) := by
  induction evs with
  | nil => exact ⟨[],rfl,fun _ ev he => absurd he not_mem_nil,trivial⟩
  | cons ev evs ih => exact ⟨evs,rfl,fun hn => absurd hn (cons_ne_nil _ _),ih⟩

variable (chain : Chain Unit)

def reply (startTip tip : Nat) : Request Unit → Answer Unit
  | .latestLedger true => { latest := some startTip }
  | .latestLedger false => { latest := some tip }
  | .getEvents startLedger tip _ => { pages := singlePages (chain.between startLedger tip) }
  | _ => {}

lemma served_reply (startTip tip : Nat) (req : Request Unit) :
    Served chain req (reply chain startTip tip req) := by
  cases req with
  | getEvents startLedger tip => exact ⟨tip,le_rfl,pagesOf_singlePages tip _⟩
  | latestLedger => trivial
  | emit => trivial
  | deadLetter => trivial
  | save => trivial

def smallBatches : Config where
  finalityDepth := 5
  batchSize := 1
  maxEventRetries := 3
  shard := 0
  checkpoint := .file

def undisturbed (startTip tip : Nat) : List (Move (Answer Unit) Empty) :=
  (fetcher smallBatches).scripted (reply chain startTip tip) 20 (resume smallBatches,Store.empty)

lemma length_between_stretch (ledger first last) :
    ((stretch ledger ledger).between first last).length ≤ 1 := by
  have hc : ∀ lgs : List Nat,
      (lgs.flatMap (stretch ledger ledger).eventsAt).length = lgs.count ledger := by
    intro lgs
    induction lgs with
    | nil => rfl
    | cons l lgs ih =>
      rw [flatMap_cons,length_append,ih,count_cons,Nat.add_comm]
      by_cases hl : l = ledger
      · simp [stretch,hl]
      · have ho : ¬ (ledger ≤ l ∧ l ≤ ledger) := by omega
        simp [stretch,hl,ho]
  rw [Timeline.between,hc]
  exact nodup_iff_count_le_one.mp nodup_range' ledger

lemma kept_reply (n tip s req) : Kept smallBatches (stretch n n) s req
    (reply (stretch n n) 5 tip req) := by
  cases req with
  | latestLedger st =>
    cases st with
    | true =>
      intro first _ startTip hs
      cases hs
      exact Nat.zero_le first
    | false => trivial
  | getEvents =>
    refine ⟨(length_between_stretch n _ _).trans (by decide),fun pg hp hn => ?_⟩
    rcases mem_append.mp hp with hp | hp
    · obtain ⟨_,-,rfl⟩ := mem_map.mp hp
      exact Option.some_ne_none _
    · rw [mem_singleton.mp hp] at hn
      exact absurd rfl hn
  | emit => trivial
  | deadLetter => trivial
  | save => trivial

theorem checkpoint_delivered_three :
    (stored smallBatches (undisturbed (stretch 3 3) 5 10)).checkpoint = some 5 ∧
    ∃ first, (stored smallBatches (undisturbed (stretch 3 3) 5 10)).firstStart = some first ∧
    ∀ raw ∈ (stretch 3 3).between first 5,
    Emitted smallBatches raw (stored smallBatches (undisturbed (stretch 3 3) 5 10)) := by
  have ha : Answered smallBatches (fun s req ans =>
      Served (stretch 3 3) req ans ∧ Kept smallBatches (stretch 3 3) s req ans)
      (undisturbed (stretch 3 3) 5 10) := by
    refine System.legal_scripted (fun s req => ?_) 20 _
    exact ⟨served_reply _ _ _ req,kept_reply 3 10 s req⟩
  have hc : (stored smallBatches (undisturbed (stretch 3 3) 5 10)).checkpoint = some 5 := by
    decide +kernel
  exact ⟨hc,checkpoint_delivered smallBatches (stretch 3 3)
    (undisturbed (stretch 3 3) 5 10) ha 5 hc⟩

/-- The fetcher collects four of five events and saves the safe tip as its checkpoint. -/
theorem checkpoint_skips_backlog : Answered smallBatches (fun _ => Served (stretch 101 105))
    (undisturbed (stretch 101 105) 105 110) ∧
    (stored smallBatches (undisturbed (stretch 101 105) 105 110)).firstStart = some 100 ∧
    (stored smallBatches (undisturbed (stretch 101 105) 105 110)).checkpoint = some 105 ∧
    plainEvent 105 ∈ (stretch 101 105).between 100 105 ∧ ¬ Emitted smallBatches (plainEvent 105)
    (stored smallBatches (undisturbed (stretch 101 105) 105 110)) := by
  refine ⟨System.legal_scripted (fun _ req => served_reply _ _ _ req) 20 _,
    by decide +kernel,by decide +kernel,by decide +kernel,?_⟩
  rintro ⟨ev,hd,hev⟩
  have hl : ev.ledger = 105 := by
    cases hd
    rfl
  have hb : ∀ ev ∈ (stored smallBatches (undisturbed (stretch 101 105) 105 110)).emitted,
      ev.ledger < 105 := by
    decide +kernel
  exact absurd hl (hb ev hev).ne

end DukaPay.Indexer
