import DukaPay.Contractlib.Checked
import DukaPay.Contractlib.Outcome
import DukaPay.Contractlib.Storage

/-! `updateUserScoresBulk` applies deltas to the scores of users in one upsert. -/
namespace DukaPay.Backend
open Contractlib List Option IntType

def int4 : IntType where
  lo := -2147483648
  hi := 2147483647

inductive DbError
  | integerOutOfRange
  | invalidValue
  | rowAffectedTwice
  | transient
  deriving DecidableEq

def FitsColumn (n : Nat) (s : String) : Prop := s.toList.length ≤ n ∧ '\x00' ∉ s.toList

instance (n : Nat) (s : String) : Decidable (FitsColumn n s) :=
  inferInstanceAs (Decidable (_ ∧ _))

abbrev VarChar (n : Nat) := {s : String // FitsColumn n s}

/-- Store a text in a `varchar(n)` column. Blanks at the end of a text that is too long are cut off,
other characters are refused. -/
def varchar (n : Nat) (s : String) : Except DbError (VarChar n) :=
  if h : '\x00' ∉ s.toList ∧ (s.toList.drop n).all (· = ' ') then
    .ok ⟨String.ofList (s.toList.take n),by
      rw [FitsColumn,String.toList_ofList]
      exact ⟨List.length_take_le n _,fun hmem => h.1 (List.mem_of_mem_take hmem)⟩⟩
  else .error .invalidValue

abbrev ScoreTable := VarChar 255 → Option Int

abbrev ScoreUpdates := Storage String Int

def clampScore (x : Int) : Int := min 850 (max 300 x)

/-- The value for `score` in the list of values: `LEAST(850, GREATEST(300, 500 - delta))`. -/
def insertedScore (delta : Int) : Except DbError Int := do
  let delta ← orFail (int4.check delta) .integerOutOfRange
  let raw ← orFail (int4.checkedSub 500 delta) .integerOutOfRange
  pure (clampScore raw)

def upsertScore (row : Option Int) (delta : Int) : Except DbError Int := do
  let excluded ← insertedScore delta
  match row with
  | none => pure excluded
  | some score => do
    let sum ← orFail (int4.checkedAdd score excluded) .integerOutOfRange
    let shifted ← orFail (int4.checkedSub sum 500) .integerOutOfRange
    pure (clampScore shifted)

abbrev ScoreParam := (_ : VarChar 255) × Int

def scoreParam (update : (_ : String) × Int) : Except DbError ScoreParam := do
  let user ← varchar 255 update.1
  pure ⟨user,update.2⟩

def upsertRow (scores : ScoreTable) (param : ScoreParam) : Except DbError ScoreTable := do
  let score ← upsertScore (scores param.1) param.2
  pure (Function.update scores param.1 (some score))

def updateUserScoresBulk (updates : ScoreUpdates) (scores : ScoreTable) :
    Except DbError ScoreTable := do
  let params ← (updates.entries.filter fun update => update.1 ≠ "").mapM scoreParam
  ensure params.keys.Nodup .rowAffectedTwice
  params.foldlM upsertRow scores

lemma varchar_of_fits {n s} (h : FitsColumn n s) : varchar n s = .ok ⟨s,h⟩ := by
  obtain ⟨hl,hz⟩ := id h
  have hd : s.toList.drop n = [] := drop_eq_nil_of_le hl
  rw [varchar,dif_pos ⟨hz,by rw [hd]; rfl⟩]
  refine congrArg Except.ok (Subtype.ext ?_)
  show String.ofList (s.toList.take n) = s
  rw [take_of_length_le hl,String.ofList_toList]

variable {scores scores' : ScoreTable} {updates : ScoreUpdates} {delta score : Int} {user : String}
  {params : List ScoreParam}

lemma upsertRow_of_ne {par user} (h : upsertRow scores par = .ok scores') (hn : user ≠ par.1) :
    scores' user = scores user := by
  simp only [upsertRow,bind_eq_ok,pure_eq_ok] at h
  obtain ⟨_,-,rfl⟩ := h
  exact Function.update_of_ne hn _ _

lemma foldlM_upsertRow_of_notMem (h : params.foldlM upsertRow scores = .ok scores')
    {user} (hu : user ∉ params.keys) : scores' user = scores user := by
  induction params generalizing scores with
  | nil =>
    rw [foldlM_nil,pure_eq_ok] at h
    rw [h]
  | cons par params ih =>
    rw [foldlM_cons,bind_eq_ok] at h
    obtain ⟨_,hr,he⟩ := h
    rw [keys_cons,mem_cons,not_or] at hu
    rw [ih he hu.2,upsertRow_of_ne hr hu.1]

lemma foldlM_upsertRow_of_mem (hn : params.NodupKeys)
    (h : params.foldlM upsertRow scores = .ok scores') {user} (hm : ⟨user,delta⟩ ∈ params) :
    ∃ score, upsertScore (scores user) delta = .ok score ∧ scores' user = some score := by
  induction params generalizing scores with
  | nil => cases hm
  | cons par params ih =>
    rw [foldlM_cons,bind_eq_ok] at h
    obtain ⟨_,hr,hre⟩ := h
    obtain ⟨hf,hn'⟩ := nodupKeys_cons.mp hn
    rcases mem_cons.mp hm with rfl | hm
    · -- no later row is for the same user
      simp only [upsertRow,bind_eq_ok,pure_eq_ok] at hr
      obtain ⟨score,hs,rfl⟩ := hr
      refine ⟨score,hs,?_⟩
      rw [foldlM_upsertRow_of_notMem hre hf,Function.update_self]
    have hne : user ≠ par.1 := fun he => hf (he ▸ mem_keys_of_mem hm)
    rw [← upsertRow_of_ne hr hne]
    exact ih hn' hre hm

lemma foldlM_upsertRow_returns (hn : params.NodupKeys)
    (h : ∀ par ∈ params, ∃ score, upsertScore (scores par.1) par.2 = .ok score) :
    ∃ scores', params.foldlM upsertRow scores = .ok scores' := by
  induction params generalizing scores with
  | nil => exact ⟨scores,rfl⟩
  | cons par params ih =>
    rw [forall_mem_cons] at h
    obtain ⟨⟨score,hs⟩,hre⟩ := h
    obtain ⟨hf,hn'⟩ := nodupKeys_cons.mp hn
    have hr : upsertRow scores par = .ok (Function.update scores par.1 (some score)) := by
      rw [upsertRow,hs]
      rfl
    rw [foldlM_cons,hr]
    refine ih hn' fun ltr hl => ?_
    have hne : ltr.1 ≠ par.1 := fun he => hf (he ▸ mem_keys_of_mem hl)
    rw [upsertRow_of_ne hr hne]
    exact hre ltr hl

def UpdatesFit (updates : ScoreUpdates) : Prop :=
  ∀ user delta, updates.lookup user = some delta → FitsColumn 255 user

lemma mapM_scoreParam (entries) (hf : ∀ upd ∈ entries, FitsColumn 255 upd.1) :
    ∃ params : List ScoreParam, entries.mapM scoreParam = .ok params ∧
    params.map (fun par => (⟨par.1.val,par.2⟩ : (_ : String) × Int)) = entries := by
  induction entries with
  | nil => exact ⟨[],rfl,rfl⟩
  | cons upd entries ih =>
    rw [forall_mem_cons] at hf
    obtain ⟨params,hp,hm⟩ := ih hf.2
    refine ⟨⟨⟨upd.1,hf.1⟩,upd.2⟩ :: params,?_,by rw [map_cons,hm]⟩
    rw [mapM_cons,scoreParam,varchar_of_fits hf.1,hp]
    rfl

lemma exists_params (hf : UpdatesFit updates) : ∃ params : List ScoreParam, params.NodupKeys ∧
    (∀ scores, updateUserScoresBulk updates scores = params.foldlM upsertRow scores) ∧
    ∀ (user : VarChar 255) (delta : Int),
    ⟨user,delta⟩ ∈ params ↔ updates.lookup user.val = some delta ∧ user.val ≠ "" := by
  have hm : ∀ user delta, ⟨user,delta⟩ ∈ updates.entries.filter (fun update => update.1 ≠ "") ↔
      updates.lookup user = some delta ∧ user ≠ "" := by
    intro user delta
    rw [List.mem_filter,decide_eq_true_iff]
    exact and_congr_left fun _ => AList.mem_lookup_iff.symm
  obtain ⟨params,hr,hp⟩ := mapM_scoreParam
    (updates.entries.filter fun update => update.1 ≠ "") fun update hu =>
      hf update.1 update.2 ((hm update.1 update.2).mp hu).1
  have hk : (params.keys.map Subtype.val).Nodup := by
    have hs := (List.filter_sublist (l := updates.entries)
      (p := fun update => update.1 ≠ "")).map Sigma.fst
    rw [← hp,List.map_map] at hs
    rw [List.keys,List.map_map]
    exact List.Nodup.sublist hs updates.nodupKeys
  have hn : params.keys.Nodup := hk.of_map
  refine ⟨params,hn,fun scores => ?_,fun user delta => ?_⟩
  · rw [updateUserScoresBulk,hr]
    show (ensure params.keys.Nodup _ >>= _) = _
    rw [ensure,if_pos hn]
    rfl
  · rw [← hm,← hp,List.mem_map]
    constructor
    · exact fun h => ⟨⟨user,delta⟩,h,rfl⟩
    · rintro ⟨⟨other,delta'⟩,h,he⟩
      cases Subtype.ext (congrArg Sigma.fst he)
      cases he
      exact h

lemma updateUserScoresBulk_spec (ht : UpdatesFit updates)
    (h : updateUserScoresBulk updates scores = .ok scores') (user : VarChar 255) :
    (∀ delta, updates.lookup user.val = some delta → user.val ≠ "" →
    ∃ score, upsertScore (scores user) delta = .ok score ∧ scores' user = some score) ∧
    (updates.lookup user.val = none ∨ user.val = "" → scores' user = scores user) := by
  obtain ⟨_,hd,hf,hm⟩ := exists_params ht
  rw [hf] at h
  constructor
  · intro delta hl hne
    exact foldlM_upsertRow_of_mem hd h ((hm user delta).mpr ⟨hl,hne⟩)
  · intro hs
    refine foldlM_upsertRow_of_notMem h fun hk => ?_
    obtain ⟨⟨name,delta⟩,hp,hq⟩ := mem_map.mp hk
    obtain rfl : name = user := hq
    obtain ⟨hl,hne⟩ := (hm name delta).mp hp
    rcases hs with hn | he
    · rw [hn] at hl
      cases hl
    · exact hne he

lemma updateUserScoresBulk_returns (scores) (ht : UpdatesFit updates)
    (h : ∀ (user : VarChar 255) (delta : Int), updates.lookup user.val = some delta →
    user.val ≠ "" → ∃ score, upsertScore (scores user) delta = .ok score) :
    ∃ scores', updateUserScoresBulk updates scores = .ok scores' := by
  obtain ⟨_,hn,hf,hm⟩ := exists_params ht
  rw [hf]
  refine foldlM_upsertRow_returns hn fun param hp => ?_
  obtain ⟨hl,he⟩ := (hm param.1 param.2).mp hp
  exact h param.1 param.2 hl he

section
variable {row : Option Int} {delta : Int}

def ScoresInRange (scores : ScoreTable) : Prop :=
  ∀ user score, scores user = some score → 300 ≤ score ∧ score ≤ 850

lemma insertedScore_eq_ok {score} (h : insertedScore delta = .ok score) :
    score = clampScore (500 - delta) := by
  simp only [insertedScore,bind_eq_ok,orFail_eq_ok,pure_eq_ok,check_eq_some,checkedSub_eq_some] at h
  obtain ⟨-,⟨-,rfl⟩,-,⟨-,rfl⟩,rfl⟩ := h
  rfl

lemma insertedScore_of_fits (hd : int4.Fits delta) (hr : int4.Fits (500 - delta)) :
    insertedScore delta = .ok (clampScore (500 - delta)) := by
  simp [insertedScore,checkedSub,check_of_fits hd,
    check_of_fits hr,orFail,bind,Except.bind,pure,Except.pure]

lemma clampScore_mem (x) : 300 ≤ clampScore x ∧ clampScore x ≤ 850 := by
  unfold clampScore
  omega

lemma clampScore_of_mem {x} (hl : 300 ≤ x) (hh : x ≤ 850) : clampScore x = x := by
  unfold clampScore
  omega

lemma upsertScore_eq_ok {score} (h : upsertScore row delta = .ok score) :
    score = clampScore (row.getD 500 + clampScore (500 - delta) - 500) := by
  rw [upsertScore,bind_eq_ok] at h
  obtain ⟨_,he,h⟩ := h
  obtain rfl := insertedScore_eq_ok he
  have hm := clampScore_mem (500 - delta)
  cases row with
  | none =>
    rw [pure_eq_ok] at h
    rw [← h,getD_none,add_sub_cancel_left,clampScore_of_mem hm.1 hm.2]
  | some =>
    simp only [bind_eq_ok,orFail_eq_ok,pure_eq_ok,checkedAdd_eq_some,checkedSub_eq_some] at h
    obtain ⟨-,⟨-,rfl⟩,-,⟨-,rfl⟩,rfl⟩ := h
    rfl

lemma upsertScore_returns (hd : int4.Fits delta) (hw : int4.Fits (500 - delta))
    (hr : ∀ score, row = some score → int4.lo + 200 ≤ score ∧ score ≤ int4.hi - 850) :
    ∃ score, upsertScore row delta = .ok score := by
  have hm := clampScore_mem (500 - delta)
  rw [upsertScore,insertedScore_of_fits hd hw]
  cases row with
  | none => exact ⟨_,rfl⟩
  | some s =>
    have hs := hr s rfl
    simp only [int4] at hs
    have hsm : int4.Fits (s + clampScore (500 - delta)) := by
      constructor <;> simp only [int4] <;> omega
    have hh : int4.Fits (s + clampScore (500 - delta) - 500) := by
      constructor <;> simp only [int4] <;> omega
    refine ⟨clampScore (s + clampScore (500 - delta) - 500),?_⟩
    show (orFail (int4.check (s + clampScore (500 - delta))) _ >>= _) = _
    rw [check_of_fits hsm]
    show (orFail (int4.check (s + clampScore (500 - delta) - 500)) _ >>= _) = _
    rw [check_of_fits hh]
    rfl

end

def scoreOf (scores : ScoreTable) (user : String) : Option Int :=
  if h : FitsColumn 255 user then scores ⟨user,h⟩ else none

/-- The score of a named user moves by its delta, within the range of scores and from `500` if the
user has no row, and no other row changes. -/
def AppliedAsGiven (updates : ScoreUpdates) (scores scores' : ScoreTable) : Prop :=
  ∀ user, scoreOf scores' user = match updates.lookup user with
    | none => scoreOf scores user
    | some delta => some (clampScore ((scoreOf scores user).getD 500 + delta))

def Survives (scores : ScoreTable) (user : String) (delta : Int) : Prop :=
  if user = "" then
    ∃ score, scoreOf scores user = some score ∧
      (delta = 0 ∨ score = 850 ∧ 0 < delta ∨ score = 300 ∧ delta < 0)
  else FitsColumn 255 user ∧ delta = 0

lemma clampScore_mirror_iff (hl : 300 ≤ score) (hh : score ≤ 850) :
    clampScore (score + clampScore (500 - delta) - 500) = clampScore (score + delta) ↔
    delta = 0 := by
  unfold clampScore
  omega

lemma clampScore_stays_iff (hl : 300 ≤ score) (hh : score ≤ 850) : score =
    clampScore (score + delta) ↔ delta = 0 ∨ score = 850 ∧ 0 < delta ∨ score = 300 ∧ delta < 0 := by
  unfold clampScore
  omega

lemma scoreOf_of_fits (h : FitsColumn 255 user) : scoreOf scores user = scores ⟨user,h⟩ := dif_pos h

lemma scoreOf_of_not_fits (h : ¬ FitsColumn 255 user) : scoreOf scores user = none := dif_neg h

lemma getD_mem (hn : ScoresInRange scores) (user) :
    300 ≤ (scores user).getD 500 ∧ (scores user).getD 500 ≤ 850 := by
  cases hr : scores user with
  | none => decide
  | some score => exact hn user score hr

lemma updatesFit_of_applied (ha : AppliedAsGiven updates scores scores') : UpdatesFit updates := by
  intro user delta hl
  by_contra hf
  have hg := ha user
  rw [hl,scoreOf_of_not_fits hf] at hg
  cases hg

lemma survives_of_applied (hn : ScoresInRange scores)
    (ho : updateUserScoresBulk updates scores = .ok scores')
    (ha : AppliedAsGiven updates scores scores')
    (hl : updates.lookup user = some delta) : Survives scores user delta := by
  have ht := updatesFit_of_applied ha
  have hf := ht user delta hl
  have hm := getD_mem hn ⟨user,hf⟩
  obtain ⟨hwr,hk⟩ := updateUserScoresBulk_spec ht ho ⟨user,hf⟩
  have hg := ha user
  simp only [hl,scoreOf_of_fits hf] at hg
  by_cases he : user = ""
  · rw [hk (.inr he)] at hg
    rw [Survives,if_pos he,scoreOf_of_fits hf]
    cases hr : scores ⟨user,hf⟩ with
    | none =>
      rw [hr] at hg
      cases hg
    | some score =>
      rw [hr] at hg hm
      exact ⟨score,rfl,(clampScore_stays_iff hm.1 hm.2).mp (Option.some.inj hg)⟩
  · obtain ⟨score,hs,hw⟩ := hwr delta hl he
    rw [Survives,if_neg he]
    refine ⟨hf,(clampScore_mirror_iff hm.1 hm.2).mp ?_⟩
    rw [← upsertScore_eq_ok hs]
    exact Option.some.inj (hw.symm.trans hg)

lemma Survives.fits (h : Survives scores user delta) : FitsColumn 255 user := by
  by_cases he : user = ""
  · rw [he]
    decide
  · rw [Survives,if_neg he] at h
    exact h.1

lemma applied_of_survives (hr : ScoresInRange scores)
    (hsr : ∀ user delta, updates.lookup user = some delta → Survives scores user delta) : ∃ scores',
    updateUserScoresBulk updates scores = .ok scores' ∧ AppliedAsGiven updates scores scores' := by
  have ht : UpdatesFit updates := fun user delta hl => (hsr user delta hl).fits
  obtain ⟨scores',ho⟩ := updateUserScoresBulk_returns scores ht fun user delta hl hn => by
      have hz := hsr user.val delta hl
      rw [Survives,if_neg hn] at hz
      rw [hz.2]
      refine upsertScore_returns (by decide) (by decide) fun score hs => ?_
      have hm := hr user score hs
      simp only [int4]
      omega
  refine ⟨scores',ho,fun user => ?_⟩
  by_cases hf : FitsColumn 255 user
  · have hm := getD_mem hr ⟨user,hf⟩
    obtain ⟨hwr,hk⟩ := updateUserScoresBulk_spec ht ho ⟨user,hf⟩
    simp only [scoreOf_of_fits hf]
    cases hl : updates.lookup user with
    | none => exact hk (.inl hl)
    | some delta =>
      have hd := hsr user delta hl
      by_cases he : user = ""
      · rw [Survives,if_pos he,scoreOf_of_fits hf] at hd
        obtain ⟨score,hs,hst⟩ := hd
        rw [hs,getD_some] at hm
        rw [hk (.inr he),hs]
        exact congrArg some ((clampScore_stays_iff hm.1 hm.2).mpr hst)
      rw [Survives,if_neg he,← clampScore_mirror_iff hm.1 hm.2] at hd
      obtain ⟨score,hs,hw⟩ := hwr delta hl he
      rw [hw,upsertScore_eq_ok hs]
      exact congrArg some hd.2
  · have hl : updates.lookup user = none := by
      rw [eq_none_iff_forall_ne_some]
      exact fun delta hso => hf (ht user delta hso)
    rw [hl,scoreOf_of_not_fits hf]
    exact (scoreOf_of_not_fits hf).symm

/-- **The upsert mirrors the deltas.** It applies the deltas as given exactly if every one of them
is zero and is for a user id that the column holds (an empty user id apart, which is skipped). -/
theorem scores_applied_iff (updates : ScoreUpdates) (scores : ScoreTable)
    (hrange : ScoresInRange scores) :
    (∃ scores', updateUserScoresBulk updates scores = .ok scores' ∧
      AppliedAsGiven updates scores scores') ↔
      ∀ user delta, updates.lookup user = some delta → Survives scores user delta := by
  constructor
  · rintro ⟨scores',hok,ha⟩ user delta hl
    exact survives_of_applied hrange hok ha hl
  · exact applied_of_survives hrange

def onlyRow (user : String) (score : Int) : ScoreTable :=
  fun name => if name.val = user then some score else none

lemma onlyRow_inRange (user) (hl : 300 ≤ score) (hh : score ≤ 850) :
    ScoresInRange (onlyRow user score) := by
  intro name s hs
  rw [onlyRow] at hs
  split at hs
  · cases hs
    exact ⟨hl,hh⟩
  · cases hs

def aliceGets (delta : Int) : ScoreUpdates := AList.singleton "alice" delta

lemma lookup_aliceGets (delta user) :
    (aliceGets delta).lookup user = if user = "alice" then some delta else none := by
  split
  · next hu =>
    rw [hu]
    rfl
  · next hu => exact dlookup_cons_ne _ _ hu

theorem scores_applied_zero : ScoresInRange (onlyRow "alice" 600) ∧
    ∃ scores', updateUserScoresBulk (aliceGets 0) (onlyRow "alice" 600) = .ok scores' ∧
    AppliedAsGiven (aliceGets 0) (onlyRow "alice" 600) scores' := by
  have hr : ScoresInRange (onlyRow "alice" 600) := onlyRow_inRange _ (by decide) (by decide)
  refine ⟨hr,(scores_applied_iff _ _ hr).mpr fun user delta hl => ?_⟩
  rw [lookup_aliceGets] at hl
  split at hl
  · next hu =>
    cases hl
    rw [Survives,hu,if_neg (by decide)]
    exact ⟨by decide,rfl⟩
  · cases hl

/-- A repayment, which is worth fifteen points, takes them away: `585` and not `615`. -/
theorem repayment_lowers_score :
    (∃ scores', updateUserScoresBulk (aliceGets 15) (onlyRow "alice" 600) = .ok scores' ∧
    scoreOf scores' "alice" = some 585) ∧
    ¬ ∃ scores', updateUserScoresBulk (aliceGets 15) (onlyRow "alice" 600) = .ok scores' ∧
    AppliedAsGiven (aliceGets 15) (onlyRow "alice" 600) scores' := by
  have hok : ∃ scores', updateUserScoresBulk (aliceGets 15) (onlyRow "alice" 600) = .ok scores' ∧
      scoreOf scores' "alice" = some 585 := ⟨_,rfl,by decide⟩
  refine ⟨hok,?_⟩
  rintro ⟨scores',hscores',hp⟩
  obtain ⟨_,hscores'',ha⟩ := hok
  cases hscores'.symm.trans hscores''
  have hg := hp "alice"
  rw [ha] at hg
  exact absurd hg (by decide)

end DukaPay.Backend
