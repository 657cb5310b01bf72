import DukaPay.Contractlib.Machine
import DukaPay.Contractlib.Threads

/-! The lock of the default checker: the value that fences the lock is kept in a field of the
checker that all runs of a process share. -/
namespace DukaPay.Backend.CheckerLock
open Contractlib Function

def lockTtlSeconds : Nat := 600

inductive Phase
  | idle
  | replied
  | running
  | releasing (value : String)
  | done
  deriving DecidableEq

/-- For the statements, `expired` has the values that have expired, and `deleted` says which run has
deleted which value. -/
structure World (ι κ : Type) where
  now : Nat
  lock : Option (String × Nat)
  currentLockValue : ι → Option String
  phase : κ → Phase
  expired : List String
  deleted : List (κ × String)

inductive Action (κ : Type)
  | setNotExists (k : κ) (fault : Fault)
  | resume (k : κ)
  | finish (k : κ)
  | deleteIfMatch (k : κ) (lost : Bool)
  | wait (seconds : Nat)
  | expire

section
variable {ι κ : Type} [DecidableEq ι] [DecidableEq κ] (process : κ → ι) (lockValue : κ → String)
variable (w : World ι κ)

def World.setPhase (k : κ) (phase : Phase) : World ι κ :=
  { w with phase := Function.update w.phase k phase }

def World.setCurrent (p : ι) (value : Option String) : World ι κ :=
  { w with currentLockValue := Function.update w.currentLockValue p value }

def World.acquire (value : String) : World ι κ :=
  { w with lock := some (value,w.now + lockTtlSeconds) }

def step : Action κ → World ι κ
  | .setNotExists k fault =>
    if w.phase k = .idle then
      match w.lock,fault with
      | none,.none => (w.acquire (lockValue k)).setPhase k .replied
      -- the key is set, but the error is taken for an occupied key
      | none,.late => (w.acquire (lockValue k)).setPhase k .done
      | _,_ => w.setPhase k .done
    else w
  | .resume k =>
    if w.phase k = .replied then
      (w.setCurrent (process k) (some (lockValue k))).setPhase k .running
    else w
  | .finish k =>
    if w.phase k = .running then
      (w.setCurrent (process k) none).setPhase k
        (((w.currentLockValue (process k)).map Phase.releasing).getD .done)
    else w
  | .deleteIfMatch k lost =>
    match w.phase k with
    | .releasing value =>
      if w.lock.map Prod.fst = some value ∧ lost = false then
        { w with lock := none, deleted := (k,value) :: w.deleted }.setPhase k .done
      else w.setPhase k .done
    | _ => w
  | .wait seconds => { w with now := w.now + seconds }
  | .expire =>
    match w.lock with
    | some (value,expiry) =>
      if expiry ≤ w.now then { w with lock := none, expired := value :: w.expired } else w
    | none => w

end

section
variable {ι κ : Type} (process : κ → ι) (lockValue : κ → String)

def Phase.Holds : Phase → Prop
  | .replied | .running | .releasing _ => True
  | _ => False

variable (w : World ι κ)

def DeletesOwn : Prop := ∀ k value, (k,value) ∈ w.deleted → value = lockValue k

structure Fenced (w : World ι κ) : Prop where
  own : DeletesOwn lockValue w
  exclusive : ∀ j k, j ≠ k → (w.phase j).Holds → (w.phase k).Holds →
    lockValue j ∈ w.expired ∨ lockValue k ∈ w.expired

/-- The field is set only while no other run of the process is between acquire and release. -/
def Alone : Action κ → Prop
  | .resume k => ∀ j, process j = process k → w.phase j ≠ .running
  | _ => True

structure Initial (w : World ι κ) : Prop where
  idle : ∀ k, w.phase k = .idle
  deleted : w.deleted = []

def Held (k : κ) : Prop :=
  w.lock.map Prod.fst = some (lockValue k) ∨ lockValue k ∈ w.expired

/-- What holds of a run in a phase. -/
def Good (k : κ) : Phase → Prop
  | .replied => Held lockValue w k
  | .running => w.currentLockValue (process k) = some (lockValue k) ∧ Held lockValue w k
  | .releasing value => value = lockValue k ∧ Held lockValue w k
  | _ => True

structure Inv (w : World ι κ) : Prop where
  own : DeletesOwn lockValue w
  good : ∀ k, Good process lockValue w k (w.phase k)

variable {process lockValue} {w w' : World ι κ} {k : κ} {phase : Phase}

lemma Good.held (h : Good process lockValue w k phase) (hp : phase.Holds) : Held lockValue w k := by
  cases phase with
  | replied => exact h
  | running | releasing => exact h.2
  | idle | done => exact hp.elim

lemma Good.mono (h : Good process lockValue w k phase) (hf : phase = .running →
    w'.currentLockValue (process k) = w.currentLockValue (process k))
    (hh : Held lockValue w k → Held lockValue w' k) : Good process lockValue w' k phase := by
  cases phase with
  | replied => exact hh h
  | running => exact ⟨(hf rfl).trans h.1,hh h.2⟩
  | releasing => exact ⟨h.1,hh h.2⟩
  | idle | done => trivial

lemma Good.acquire (h : Good process lockValue w k phase) (hn : w.lock = none)
    (v) : Good process lockValue (w.acquire v) k phase := by
  refine h.mono (fun _ => rfl) fun hh => .inr (hh.resolve_left ?_)
  rw [hn]
  nofun

variable [DecidableEq κ]

lemma inv_setPhase (ho : DeletesOwn lockValue w) (hk : Good process lockValue w k phase)
    (hg : ∀ j, j ≠ k → Good process lockValue w j (w.phase j)) :
    Inv process lockValue (w.setPhase k phase) :=
  ⟨ho,(forall_update_iff _ (Good process lockValue w)).mpr ⟨hk,hg⟩⟩

variable [DecidableEq ι] (hdistinct : Function.Injective lockValue)

include hdistinct

lemma inv_step (w act) (h : Inv process lockValue w)
    (ha : Alone process w act) : Inv process lockValue (step process lockValue w act) := by
  have hsk k : Inv process lockValue (w.setPhase k .done) :=
    inv_setPhase h.own trivial fun j _ => h.good j
  have hg {k phase} (hk : w.phase k = phase) : Good process lockValue w k phase := hk ▸ h.good k
  cases act with
  | setNotExists k =>
    dsimp only [step]
    split
    · split
      · next hn =>
        exact inv_setPhase h.own (.inl rfl) fun j _ => (h.good j).acquire hn _
      · next hn => exact inv_setPhase h.own trivial fun j _ => (h.good j).acquire hn _
      · exact hsk k
    · exact h
  | resume =>
    dsimp only [step]
    split
    · next hk =>
      refine inv_setPhase h.own ⟨update_self ..,hg hk⟩ fun j _ => ?_
      refine (h.good j).mono (fun hr => update_of_ne (fun he => ?_) ..) id
      exact ha j he hr
    · exact h
  | finish =>
    dsimp only [step]
    split
    · next hk =>
      obtain ⟨hf,hh⟩ := hg hk
      rw [hf]
      refine inv_setPhase h.own ⟨rfl,hh⟩ fun j hjk => (h.good j).mono (fun hr => ?_) id
      -- two runs of the process that are running would share the field
      refine update_of_ne (fun he => hjk (hdistinct ?_)) ..
      have hs := (hg hr).1
      rw [he,hf] at hs
      exact (Option.some.inj hs).symm
    · exact h
  | deleteIfMatch k =>
    dsimp only [step]
    split
    · next val hk =>
      split
      · next ht =>
        cases (hg hk).1
        refine inv_setPhase (fun j val hj => ?_) trivial fun j hjk => ?_
        · rcases List.mem_cons.mp hj with he | hj
          · cases he
            rfl
          · exact h.own j val hj
        · refine (h.good j).mono (fun _ => rfl) fun hh => .inr (hh.resolve_left fun he => ?_)
          exact hjk (hdistinct (Option.some.inj (he.symm.trans ht.1)))
      · exact hsk k
    · exact h
  | wait => exact ⟨h.own,h.good⟩
  | expire =>
    dsimp only [step]
    split
    · next val expiry hl =>
      split
      · refine ⟨h.own,fun j => (h.good j).mono (fun _ => rfl) fun hh => .inr ?_⟩
        rcases hh with he | hm
        · rw [hl] at he
          exact Option.some.inj he ▸ List.mem_cons_self
        · exact List.mem_cons_of_mem _ hm
      · exact h
    · exact h

/-- **The lock is fenced**: if the field of a process is set only while no other run of the process
is running, then runs delete their own values only, and two runs hold the lock at once only after an
expiry. -/
theorem lock_fenced (w : World ι κ) (hinit : Initial w) (actions : List (Action κ))
    (halone : Always (step process lockValue) (Alone process) w actions) :
    Fenced lockValue (actions.foldl (step process lockValue) w) := by
  have hn : Inv process lockValue w := by
    refine ⟨fun k val hk => ?_,fun k => ?_⟩
    · rw [hinit.deleted] at hk
      cases hk
    · rw [hinit.idle]
      trivial
  have hr := halone.foldl (inv_step hdistinct) hn
  refine ⟨hr.own,fun j k hne hj hk => ?_⟩
  rcases (hr.good j).held hj with hj | hj
  · refine .inr (((hr.good k).held hk).resolve_left fun hk => hne (hdistinct ?_))
    exact Option.some.inj (hj.symm.trans hk)
  · exact .inl hj

end

def idleRuns {ι : Type} : World ι Bool := ⟨0,none,fun _ => none,fun _ => .idle,[],[]⟩

def runValue (k : Bool) : String := if k then "a" else "b"

/-- Two runs of one process, one after the other. -/
def inTurn : List (Action Bool) :=
  [.setNotExists true .none,.resume true,.finish true,.deleteIfMatch true false,
    .setNotExists false .none,.resume false,.finish false,.deleteIfMatch false false]

/-- Runs of two processes: the lock of the first one expires, and it ends after the second one has
begun. -/
def overtaken : List (Action Bool) :=
  [.setNotExists true .none,.resume true,.wait 600,.expire,.setNotExists false .none,
    .resume false,.finish true]

lemma alone_inTurn : Always (step (fun _ => ()) runValue) (Alone fun _ => ()) idleRuns inTurn := by
  refine ⟨trivial,?_,trivial,trivial,trivial,?_,trivial,trivial,trivial⟩
  · intro j _
    revert j
    decide
  · intro j _
    revert j
    decide

lemma alone_overtaken {after : Action Bool} (h : ∀ w, Alone id w after) :
    Always (step id runValue) (Alone id) idleRuns (overtaken ++ [after]) := by
  refine ⟨trivial,?_,trivial,trivial,trivial,?_,trivial,h _,trivial⟩
  · intro j hj
    obtain rfl : j = true := hj
    decide
  · intro j hj
    obtain rfl : j = false := hj
    decide

theorem lock_fenced_in_turn :
    let turns := inTurn.foldl (step (fun _ => ()) runValue) idleRuns
    let both := (overtaken ++ [Action.wait 1]).foldl (step id runValue) idleRuns
    let one := (overtaken ++ [Action.deleteIfMatch true false]).foldl (step id runValue) idleRuns
    Fenced runValue turns ∧ turns.deleted = [(false,"b"),(true,"a")] ∧
    Fenced runValue both ∧ both.phase true = .releasing "a" ∧ both.phase false = .running ∧
    Fenced runValue one ∧ one.phase true = .done ∧ one.lock = some ("b",1200) := by
  have hdistinct : Function.Injective runValue := fun j k => by revert j k; decide
  exact ⟨lock_fenced hdistinct idleRuns ⟨fun _ => rfl,rfl⟩ inTurn alone_inTurn,by decide,
    lock_fenced hdistinct idleRuns ⟨fun _ => rfl,rfl⟩ _ (alone_overtaken fun _ => trivial),
    by decide,by decide,
    lock_fenced hdistinct idleRuns ⟨fun _ => rfl,rfl⟩ _ (alone_overtaken fun _ => trivial),
    by decide,by decide⟩

/-- The second run of a process begins after the lock of the first one has expired, and the first
one then deletes its lock. -/
theorem lock_deleted_by_other : ¬ Fenced runValue ([.setNotExists true .none,.resume true,
    .wait 600,.expire,.setNotExists false .none,.resume false,.finish true,
    .deleteIfMatch true false].foldl (step (fun _ => ()) runValue) idleRuns) := by
  intro h
  have ho := h.own true "b" (by decide)
  revert ho
  decide

end DukaPay.Backend.CheckerLock
