import DukaPay.Backend.Events
import DukaPay.Contractlib.Machine
import DukaPay.Contractlib.Sql
import DukaPay.Contractlib.Threads
import DukaPay.JavaScript

/-! One process keeps the pause state in memory, next to a row of the database and a marker for a
pause that could not be stored. -/
namespace DukaPay.Backend.PauseGuard
open Contractlib JavaScript

inductive PauseStateSource
  | database | cache | memory | failClosed | unloaded
  deriving DecidableEq

structure PauseState where
  isPaused : Bool
  reason : Option String
  contracts : List String
  source : PauseStateSource

structure Row where
  isPaused : Bool
  reason : Option String
  contracts : List String

structure Pause where
  isPaused : Bool
  contracts : List String
  reason : Option String

/-- The call of `setPauseState` that an indexed event leads to. -/
def pauseOf (eventType : EventType) (contractId : String) : Option Pause :=
  match eventType with
  | .PoolPaused => some ⟨true,[contractId],some "Emergency pause triggered by contract"⟩
  | .PoolUnpaused => some ⟨false,[],some "Contract pause lifted"⟩
  | _ => none

inductive Phase
  | idle
  | upserting (pause : Pause)
  | upserted (pause : Pause) (ok : Bool)
  | selecting
  | selected (answer : Option (Option Row))
  | fallback (known : PauseState)

/-- The calls in one process and the table. For the statements, `due` says that a pause has taken
effect, and that since then neither an unpause has succeeded nor the row was set to not paused. -/
structure World (κ : Type) where
  globalPauseState : PauseState
  pendingPause : Option (Option String × List String)
  row : Option Row
  phase : κ → Phase
  due : Bool

inductive Action (κ : Type)
  | setPauseState (k : κ) (pause : Pause)
  | updatePauseStateFromDatabase (k : κ)
  | upsert (k : κ) (fault : Fault)
  | select (k : κ) (fails : Bool)
  | resume (k : κ) (cached : Option Row)
  | write (row : Option Row)

/-- `JSON.stringify` of a list of texts. -/
def stringifyTexts (texts : List String) : List Char :=
  '[' :: List.intercalate [','] (texts.map fun text => quote text.toList) ++ [']']

/-- The column `contracts` of `pause_state` is `TEXT[]`. -/
def contractsColumn : Sql.TextsColumn := .array

def orNull (reason : Option String) : Option String := reason.filter fun text => text ≠ ""

def isMutating (method : String) : Bool := !(["GET","HEAD","OPTIONS"].contains method)

def pauseGuard (state : PauseState) (method : String) : Except String Unit :=
  if isMutating method ∧ state.isPaused then
    .error ("Contract operations are temporarily paused. Reason: " ++
      (orNull state.reason).getD "Maintenance or security measure" ++ ". Affected contracts: " ++
      String.intercalate ", " state.contracts)
  else .ok ()

def rowPaused (row : Option Row) : Bool := row.any Row.isPaused

def PauseState.isReal (state : PauseState) : Bool :=
  state.source = .database || state.source = .cache || state.source = .memory

def fallBackFromDatabase (known : PauseState) (cached : Option Row) : PauseState :=
  match cached with
  | some row =>
    if known.isPaused && !row.isPaused && known.isReal then { known with source := .memory }
    else ⟨row.isPaused,row.reason,row.contracts,.cache⟩
  | none =>
    if known.isReal then { known with source := .memory }
    else {
      isPaused := true
      reason := some "Pause state could not be verified (database unavailable)"
      contracts := known.contracts
      source := .failClosed }

def stateOfRow : Option Row → PauseState
  | some row => ⟨row.isPaused,row.reason,row.contracts,.database⟩
  | none => ⟨false,none,[],.database⟩

/-- The row that the upsert stores if its column reads the contracts. -/
def upsertedRow (column : Sql.TextsColumn) (pause : Pause) : Option Row :=
  if column.reads (stringifyTexts pause.contracts) then
    some ⟨pause.isPaused,orNull pause.reason,pause.contracts⟩
  else none

section
variable {κ : Type} [DecidableEq κ] (column : Sql.TextsColumn) (w : World κ)

def World.setPhase (k : κ) (phase : Phase) : World κ :=
  { w with phase := Function.update w.phase k phase }

def World.store (row : Option Row) : World κ :=
  { w with row, due := w.due && rowPaused row }

/-- The end of `setPauseState`; a failed upsert is thrown, but a pause is enforced from memory. -/
def World.applyPause (pause : Pause) (ok : Bool) : World κ :=
  let source := if ok then .database else .memory
  if ok ∨ pause.isPaused then
    { w with
      pendingPause := if ok then none else some (orNull pause.reason,pause.contracts)
      globalPauseState := ⟨pause.isPaused,orNull pause.reason,pause.contracts,source⟩
      due := pause.isPaused }
  else w

def step : Action κ → World κ
  | .setPauseState k pause =>
    match w.phase k with
    | .idle => w.setPhase k (.upserting pause)
    | _ => w
  | .updatePauseStateFromDatabase k =>
    match w.phase k with
    | .idle => w.setPhase k .selecting
    | _ => w
  | .upsert k fault =>
    match w.phase k with
    | .upserting pause =>
      match upsertedRow column pause,fault with
      | some row,.none => (w.store (some row)).setPhase k (.upserted pause true)
      | some row,.late => (w.store (some row)).setPhase k (.upserted pause false)
      | _,_ => w.setPhase k (.upserted pause false)
    | _ => w
  | .select k fails =>
    match w.phase k with
    | .selecting => w.setPhase k (.selected (if fails then none else some w.row))
    | _ => w
  | .resume k cached =>
    match w.phase k with
    | .upserted pause ok => (w.applyPause pause ok).setPhase k .idle
    | .selected none => w.setPhase k (.fallback w.globalPauseState)
    | .selected (some row) =>
      match w.pendingPause,rowPaused row with
      -- the row does not have the pause yet: store it instead
      | some (reason,contracts),false => w.setPhase k (.upserting ⟨true,contracts,reason⟩)
      | _,_ => { w with pendingPause := none, globalPauseState := stateOfRow row }.setPhase k .idle
    | .fallback known =>
      { w with globalPauseState := fallBackFromDatabase known cached }.setPhase k .idle
    | _ => w
  | .write row => w.store row

def run (actions : List (Action κ)) : World κ := actions.foldl (step column) w

def Enforced : Prop :=
  w.due = true → ∀ method, isMutating method = true →
    ∃ message, pauseGuard w.globalPauseState method = .error message

/-- A refresh that would lift a pause which takes effect now: it waits for Redis with another state,
or has read a pause that the row no longer has. -/
def Phase.Undoes (row : Option Row) : Phase → Prop
  | .fallback known => ¬ (known.isPaused = true ∧ known.isReal = true)
  | .selected (some read) => rowPaused read = true ∧ rowPaused row = false
  | _ => False

def Phase.ReadsNoPause : Phase → Prop
  | .selected (some row) => rowPaused row = false
  | _ => False

/-- No refresh undoes a pause that takes effect, and a refresh that drops the marker, because it has
read a pause, is not followed by one that has read none. -/
def Apart : Action κ → Prop
  | .resume k _ =>
    match w.phase k with
    | .upserted pause _ => pause.isPaused = true → ∀ j, ¬ (w.phase j).Undoes w.row
    | .selected (some row) => rowPaused row = true → w.pendingPause ≠ none →
      ∀ j, ¬ (w.phase j).ReadsNoPause
    | _ => True
  | _ => True

/-- What a pause that is due rests on in a phase. -/
def World.Safe : Phase → Prop
  | .upserted _ ok => ok = false
  | .selected (some row) => w.due = true → (rowPaused row = true → rowPaused w.row = true) ∧
      (rowPaused row = false → w.pendingPause ≠ none)
  | .fallback known => w.due = true → known.isPaused = true ∧ known.isReal = true
  | _ => True

end

structure Held {κ : Type} (w : World κ) : Prop where
  paused : w.globalPauseState.isPaused = true
  real : w.globalPauseState.isReal = true
  stored : rowPaused w.row = true ∨ w.pendingPause ≠ none

structure Inv {κ : Type} (w : World κ) : Prop where
  safe : ∀ k, w.Safe (w.phase k)
  held : w.due = true → Held w

section

/-- No list of contracts is an array in the text that is sent. -/
lemma upsertedRow_contractsColumn (pause) : upsertedRow contractsColumn pause = none := by
  refine if_neg ?_
  rw [stringifyTexts]
  cases pause.contracts with
  | nil => decide
  | cons text texts => cases texts <;> exact Bool.false_ne_true

lemma upsertedRow_json (pause) : upsertedRow .json pause =
    some ⟨pause.isPaused,orNull pause.reason,pause.contracts⟩ := rfl

variable {κ : Type} {w : World κ} {k : κ}

lemma fallBackFromDatabase_paused {kn : PauseState} (hp : kn.isPaused = true)
    (hr : kn.isReal = true) (cached) : (fallBackFromDatabase kn cached).isPaused = true ∧
    (fallBackFromDatabase kn cached).isReal = true := by
  cases cached with
  | none =>
    rw [fallBackFromDatabase,if_pos hr]
    exact ⟨hp,rfl⟩
  | some row =>
    rw [fallBackFromDatabase,hp,hr]
    cases row.isPaused with
    | false => exact ⟨rfl,rfl⟩
    | true => exact ⟨rfl,rfl⟩

lemma stateOfRow_paused {row} (h : rowPaused row = true) :
    (stateOfRow row).isPaused = true ∧ (stateOfRow row).isReal = true := by
  cases row with
  | none => cases h
  | some => exact ⟨h,rfl⟩

lemma enforced_of_held (h : w.due = true → Held w) : Enforced w := by
  intro hd method hm
  rw [pauseGuard,if_pos ⟨hm,(h hd).paused⟩]
  exact ⟨_,rfl⟩

lemma inv_store (h : Inv w) (row) : Inv (w.store row) := by
  have hr (hd : (w.store row).due = true) : w.due = true ∧ rowPaused row = true :=
    Bool.and_eq_true_iff.mp hd
  refine ⟨fun k => ?_,fun hd => ?_⟩
  · have hs := h.safe k
    show (w.store row).Safe (w.phase k)
    cases hk : w.phase k with
    | idle | upserting | selecting => trivial
    | upserted => rwa [hk] at hs
    | fallback =>
      rw [hk] at hs
      exact fun hd => hs (hr hd).1
    | selected answer =>
      cases answer with
      | none => trivial
      | some =>
        rw [hk] at hs
        exact fun hd => ⟨fun _ => (hr hd).2,(hs (hr hd).1).2⟩
  · have hh := h.held (hr hd).1
    exact ⟨hh.paused,hh.real,.inl (hr hd).2⟩

lemma safe_of_not_undoes {ph} (hs : w.Safe ph) (hu : ¬ ph.Undoes w.row) (pause) :
    (w.applyPause pause false).Safe ph := by
  rw [World.applyPause]
  split
  · cases ph with
    | idle | upserting | selecting => trivial
    | upserted => exact hs
    | fallback => exact fun _ => not_not.mp hu
    | selected answer =>
      cases answer with
      | none => trivial
      | some =>
        exact fun _ => ⟨fun hp => Bool.not_eq_false _ ▸ fun hf => hu ⟨hp,hf⟩,
          fun _ => Option.some_ne_none _⟩
  · exact hs

lemma inv_applyPause (h : Inv w) {pause : Pause}
    (ha : pause.isPaused = true → ∀ j, ¬ (w.phase j).Undoes w.row) :
    Inv (w.applyPause pause false) := by
  by_cases hp : pause.isPaused = true
  · have hs (j) := safe_of_not_undoes (h.safe j) (ha hp j) pause
    rw [World.applyPause,if_pos (.inr hp)] at hs ⊢
    exact ⟨hs,fun _ => ⟨hp,rfl,.inr (Option.some_ne_none _)⟩⟩
  · rwa [World.applyPause,if_neg (by simp [hp])]

variable [DecidableEq κ]

/-- A call enters a phase; what it leaves behind need not be safe. -/
lemma inv_setPhase_of {ph} (ho : ∀ j, j ≠ k → w.Safe (w.phase j)) (hp : w.Safe ph)
    (hh : w.due = true → Held w) : Inv (w.setPhase k ph) := by
  refine ⟨fun j => ?_,fun hd => ⟨(hh hd).paused,(hh hd).real,(hh hd).stored⟩⟩
  show w.Safe (Function.update w.phase k ph j)
  obtain rfl | hj := eq_or_ne j k
  · rwa [Function.update_self]
  · rw [Function.update_of_ne hj]
    exact ho j hj

lemma inv_setPhase (h : Inv w) {ph} (hp : w.Safe ph) : Inv (w.setPhase k ph) :=
  inv_setPhase_of (fun j _ => h.safe j) hp h.held

/-- A refresh that applies a row: it lifts no pause that is due. -/
lemma inv_applyRow (h : Inv w) {row} (hk : w.phase k = .selected (some row))
    (hn : w.pendingPause ≠ none → rowPaused row = true)
    (ha : rowPaused row = true → w.pendingPause ≠ none →
    ∀ j, ¬ (w.phase j).ReadsNoPause) : Inv
    ({ w with pendingPause := none, globalPauseState := stateOfRow row }.setPhase k .idle) := by
  have hr (hd : w.due = true) : rowPaused row = true ∧ rowPaused w.row = true := by
    have hs := h.safe k
    rw [hk] at hs
    cases hp : rowPaused row with
    | true => exact ⟨rfl,(hs hd).1 hp⟩
    | false => exact absurd (hn ((hs hd).2 hp)) (by rw [hp]; exact Bool.false_ne_true)
  refine inv_setPhase_of (fun j _ => ?_) trivial fun hd => ?_
  · have hs := h.safe j
    show World.Safe _ (w.phase j)
    cases hj : w.phase j with
    | idle | upserting | selecting => trivial
    | upserted | fallback =>
      rw [hj] at hs
      exact hs
    | selected answer =>
      cases answer with
      | none => trivial
      | some row' =>
        rw [hj] at hs
        refine fun hd => ⟨(hs hd).1,fun hf => absurd ?_ (ha (hr hd).1 ((hs hd).2 hf) j)⟩
        rw [hj]
        exact hf
  · obtain ⟨hp,hl⟩ := stateOfRow_paused (hr hd).1
    exact ⟨hp,hl,.inl (hr hd).2⟩

lemma inv_resume (h : Inv w) {cached} (ha : Apart w (.resume k cached)) :
    Inv (step contractsColumn w (.resume k cached)) := by
  cases hk : w.phase k with
  | idle | upserting | selecting => simpa only [step,hk] using h
  | upserted pause ok =>
    have hs := h.safe k
    rw [hk] at hs
    obtain rfl : ok = false := hs
    simp only [Apart,hk] at ha
    simp only [step,hk]
    exact inv_setPhase (inv_applyPause h ha) trivial
  | fallback kn =>
    have hs := h.safe k
    rw [hk] at hs
    simp only [step,hk]
    refine inv_setPhase_of (fun j _ => h.safe j) trivial fun hd => ?_
    obtain ⟨hp,hr⟩ := fallBackFromDatabase_paused (hs hd).1 (hs hd).2 cached
    exact ⟨hp,hr,(h.held hd).stored⟩
  | selected answer =>
    cases answer with
    | none =>
      simp only [step,hk]
      exact inv_setPhase h fun hd => ⟨(h.held hd).paused,(h.held hd).real⟩
    | some row =>
      simp only [Apart,hk] at ha
      simp only [step,hk]
      split
      · exact inv_setPhase h trivial
      · next hn =>
        -- an answer that would lift the pause finds the marker
        refine inv_applyRow h hk (fun hp => ?_) ha
        obtain ⟨⟨rsn,contracts⟩,ho⟩ := Option.ne_none_iff_exists'.mp hp
        exact Bool.not_eq_false _ ▸ hn rsn contracts ho

lemma inv_step (w) (act : Action κ) (h : Inv w) (ha : Apart w act) :
    Inv (step contractsColumn w act) := by
  cases act with
  | setPauseState | updatePauseStateFromDatabase =>
    rw [step]
    split
    · exact inv_setPhase h trivial
    · exact h
  | upsert =>
    rw [step]
    split
    · rw [upsertedRow_contractsColumn]
      exact inv_setPhase h rfl
    · exact h
  | select k fails =>
    rw [step]
    split
    · refine inv_setPhase h ?_
      cases fails with
      | true => trivial
      | false =>
        refine fun hd => ⟨id,fun hf => (h.held hd).stored.resolve_left fun ht => ?_⟩
        cases hf.symm.trans ht
    · exact h
  | resume => exact inv_resume h ha
  | write row => exact inv_store h row

end

structure Started {κ : Type} (w : World κ) : Prop where
  idle : ∀ k, w.phase k = .idle
  due : w.due = false

/-- **A pause is never silently lifted**, in every interleaving and with every failure, provided
that no refresh undoes it. -/
theorem pause_enforced {κ : Type} [DecidableEq κ] (w : World κ) (h : Started w)
    (actions : List (Action κ)) (hall : Always (step contractsColumn) Apart w actions) :
    Enforced (run contractsColumn w actions) := by
  have hs : Inv w := by
    refine ⟨fun k => ?_,fun hd => ?_⟩
    · rw [h.idle k]
      trivial
    · cases h.due.symm.trans hd
  exact enforced_of_held (Always.foldl inv_step hs hall).held

def emergency : Pause := ⟨true,["pool"],some "Emergency pause triggered by contract"⟩

def unpaused : World Bool := ⟨stateOfRow none,none,none,fun _ => .idle,false⟩

lemma started_unpaused : Started unpaused := ⟨fun _ => rfl,rfl⟩

/-- A refresh has read the row before the pause and tries to store it, and the next one finds
neither the database nor the pause in the cache. -/
def staleRefresh : List (Action Bool) :=
  [.updatePauseStateFromDatabase false,.select false false,.setPauseState true emergency,
    .upsert true .none,.resume true none,.resume false none,.upsert false .none,
    .resume false none,.updatePauseStateFromDatabase false,.select false true,
    .resume false none,.resume false (some ⟨false,none,[]⟩)]

theorem pause_enforced_stale :
    (run contractsColumn unpaused staleRefresh).due = true ∧
    Enforced (run contractsColumn unpaused staleRefresh) := by
  refine ⟨rfl,pause_enforced unpaused started_unpaused staleRefresh ⟨trivial,trivial,trivial,trivial,
    fun _ j hj => ?_,fun hp => ?_,trivial,fun _ j hj => ?_,trivial,trivial,trivial,trivial,trivial⟩⟩
  · cases j with
    | false => cases hj.1
    | true => exact hj
  · cases hp
  · cases j <;> exact hj

/-- **A refresh that waits for Redis** with the state before the pause applies it afterwards. -/
theorem pause_lifted :
    ¬ ∀ (w : World Bool), Started w → ∀ actions : List (Action Bool),
      Enforced (run contractsColumn w actions) := by
  intro h
  obtain ⟨_,hm⟩ := h unpaused started_unpaused
    [.updatePauseStateFromDatabase false,.select false true,.resume false none,
      .setPauseState true emergency,.upsert true .none,.resume true none,.resume false none]
    rfl "POST" rfl
  cases hm

end DukaPay.Backend.PauseGuard
