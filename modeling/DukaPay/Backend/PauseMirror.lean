import DukaPay.Backend.PauseGuard
import Mathlib.Data.List.Induction

/-! The guard keeps one state for all contracts, which each event of a pool overwrites. -/
namespace DukaPay.Backend.PauseGuard
open List Option

structure PauseEvent where
  contractId : String
  paused : Bool

def PauseEvent.eventType (isPool : String → Bool) (event : PauseEvent) : EventType :=
  match isPool event.contractId,event.paused with
  | true,true => .PoolPaused
  | true,false => .PoolUnpaused
  | false,true => .Paused
  | false,false => .Unpaused

variable {κ : Type} [DecidableEq κ] (isPool : String → Bool) (k : κ)

/-- A call of `setPauseState` that does not fail. -/
def setActions (pause : Pause) : List (Action κ) :=
  [.setPauseState k pause,.upsert k .none,.resume k none]

/-- What `storeEvents` does with a stored event besides storing it, where no statement fails: the
column of the contracts reads the text that is sent. -/
def handleEvent (w : World κ) (event : PauseEvent) : World κ :=
  match pauseOf (event.eventType isPool) event.contractId with
  | some pause => run .json w (setActions k pause)
  | none => w

def latest (p : String → Bool) (events : List PauseEvent) : Option PauseEvent :=
  events.reverse.find? fun event => p event.contractId

def PausedBy (events : List PauseEvent) (contract : String) : Prop :=
  (latest (· == contract) events).map PauseEvent.paused = some true

structure Mirrors (events : List PauseEvent) (state : PauseState) : Prop where
  isPaused : state.isPaused = true ↔ ∃ contract, PausedBy events contract
  contracts : ∀ contract, contract ∈ state.contracts ↔ PausedBy events contract

/-- The state that the last event of a pool leaves, or that of a guard that is not paused. -/
structure Shows (event : Option PauseEvent) (w : World κ) : Prop where
  isPaused : w.globalPauseState.isPaused = (event.map PauseEvent.paused).getD false
  contracts : w.globalPauseState.contracts =
    ((event.filter PauseEvent.paused).map PauseEvent.contractId).toList
  idle : w.phase k = .idle

variable {isPool k} {w : World κ} {events : List PauseEvent} {event : PauseEvent}

lemma run_setActions (hd : w.phase k = .idle) (pause) :
    (run .json w (setActions k pause)).globalPauseState =
    ⟨pause.isPaused,orNull pause.reason,pause.contracts,.database⟩ ∧
    (run .json w (setActions k pause)).phase k = .idle := by
  simp [run,setActions,step,hd,upsertedRow_json,World.setPhase,World.store,World.applyPause]

lemma latest_concat (p) : latest p (events ++ [event]) =
    if p event.contractId then some event else latest p events := by
  rw [latest,reverse_append,reverse_singleton,singleton_append,find?_cons]
  split <;> simp_all [latest]

lemma Shows.handleEvent (h : Shows k (latest isPool events) w) (event) :
    Shows k (latest isPool (events ++ [event])) (handleEvent isPool k w event) := by
  rw [latest_concat,PauseGuard.handleEvent,PauseEvent.eventType]
  cases hl : isPool event.contractId with
  | false => cases event.paused <;> exact h
  | true =>
    cases hs : event.paused with
    | false =>
      obtain ⟨ht,hp⟩ := run_setActions h.idle ⟨false,[],some "Contract pause lifted"⟩
      exact ⟨by simp [pauseOf,ht,hs],by simp [pauseOf,ht,Option.filter,hs],hp⟩
    | true =>
      obtain ⟨ht,hp⟩ := run_setActions h.idle
        ⟨true,[event.contractId],some "Emergency pause triggered by contract"⟩
      exact ⟨by simp [pauseOf,ht,hs],by simp [pauseOf,ht,Option.filter,hs],hp⟩

lemma shows_foldl (h : Shows k none w) (events) :
    Shows k (latest isPool events) (events.foldl (handleEvent isPool k) w) := by
  induction events using List.reverseRecOn with
  | nil => exact h
  | append_singleton events event ih =>
    rw [foldl_append]
    exact ih.handleEvent event

/-- The last event of a pool is the last one of its contract. -/
lemma latest_contract (h : latest isPool events = some event) :
    latest (· == event.contractId) events = some event := by
  have hp := find?_some h
  induction events using List.reverseRecOn with
  | nil => cases h
  | append_singleton events last ih =>
    rw [latest_concat] at h ⊢
    split at h
    · cases h
      exact if_pos (beq_self_eq_true _)
    · next hl =>
      rw [if_neg,ih h]
      intro he
      rw [beq_iff_eq.mp he] at hl
      exact hl hp

/-- **The guard mirrors the contracts** exactly if no contract is paused but the one that the last
event of a pool names. -/
theorem mirrors_iff (isPool : String → Bool) (k : κ) (w : World κ) (h : Shows k none w)
    (events : List PauseEvent) :
    Mirrors events (events.foldl (handleEvent isPool k) w).globalPauseState ↔
      ∀ contract, PausedBy events contract →
      (latest isPool events).map PauseEvent.contractId = some contract := by
  have hs : Shows k (latest isPool events) _ := shows_foldl h events
  constructor
  · intro hr contract hu
    have hm := (hr.contracts contract).mpr hu
    rw [hs.contracts] at hm
    obtain ⟨event,he,rfl⟩ := map_eq_some_iff.mp (mem_toList.mp hm)
    rw [(filter_eq_some_iff.mp he).1]
    rfl
  · intro ha
    cases hl : latest isPool events with
    | none =>
      rw [hl] at ha hs
      have hn contract : ¬ PausedBy events contract := fun hp => by cases ha contract hp
      exact ⟨by simp [hs.isPaused,hn],by simp [hs.contracts,hn]⟩
    | some event =>
      rw [hl] at ha hs
      have hw : PausedBy events event.contractId ↔ event.paused = true := by
        simp [PausedBy,latest_contract hl]
      have ho contract : PausedBy events contract → event.contractId = contract :=
        fun hp => Option.some.inj (ha contract hp)
      have hu contract :
          PausedBy events contract ↔ event.contractId = contract ∧ event.paused = true :=
        ⟨fun hp => ⟨ho contract hp,hw.mp (ho contract hp ▸ hp)⟩,fun ⟨heq,hp⟩ => heq ▸ hw.mpr hp⟩
      refine ⟨by simp [hs.isPaused,hu],fun contract => ?_⟩
      rw [hs.contracts,hu]
      cases hp : event.paused <;> simp [Option.filter,hp,eq_comm]

def poolOnly (contract : String) : Bool := contract == "pool"

/-- Two pools and a loan manager: one pool and the manager are paused and unpaused, the other pool
is paused. -/
def twoPools : List PauseEvent :=
  [⟨"pool",true⟩,⟨"manager",true⟩,⟨"pool",false⟩,⟨"manager",false⟩,⟨"second pool",true⟩]

theorem mirrors_second_pool : Mirrors twoPools
    (twoPools.foldl (handleEvent (· != "manager") true) unpaused).globalPauseState := by
  refine (mirrors_iff (· != "manager") true unpaused ⟨rfl,rfl,rfl⟩ twoPools).mpr fun contract hp => ?_
  rw [PausedBy] at hp
  obtain rfl | hs := eq_or_ne contract "second pool"
  · decide
  obtain rfl | hm := eq_or_ne contract "manager"
  · exact absurd hp (by decide)
  obtain rfl | hc := eq_or_ne contract "pool"
  · exact absurd hp (by decide)
  · simp [latest,twoPools,Ne.symm hs,Ne.symm hm,Ne.symm hc] at hp

/-- A pause of the loan manager does not reach the guard. -/
theorem manager_pause_ignored : ¬ Mirrors [⟨"manager",true⟩]
    ([⟨"manager",true⟩].foldl (handleEvent poolOnly true) unpaused).globalPauseState := by
  intro h
  have hm := (h.contracts "manager").mpr rfl
  cases hm

end DukaPay.Backend.PauseGuard
