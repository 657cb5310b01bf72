import DukaPay.Backend.Settlements

/-! Actions run in order until one fails; the steps before it are then compensated, the last one
first. -/
namespace DukaPay.Backend.Saga
open List Settlements
variable {σ ε : Type}

/-- The two promises of a step: each may change the world, and resolves or rejects. -/
structure SagaStep (σ ε : Type) where
  name : String
  action : σ → Except ε Unit × σ
  compensation : σ → Except ε Unit × σ

inductive Call (σ ε : Type)
  | action (step : SagaStep σ ε)
  | compensation (step : SagaStep σ ε)

def Call.body : Call σ ε → σ → Except ε Unit × σ
  | action step => step.action
  | compensation step => step.compensation

structure World (σ ε : Type) where
  state : σ
  /-- Every promise awaited so far, the earliest first. -/
  calls : List (Call σ ε)

def World.await (w : World σ ε) (call : Call σ ε) : Except ε Unit × World σ ε :=
  ((call.body w.state).1,⟨(call.body w.state).2,w.calls ++ [call]⟩)

structure SettlementSaga (σ ε : Type) where
  steps : List (SagaStep σ ε) := []
  executed : List (SagaStep σ ε) := []

structure Result where
  state : SettlementState
  failedStep : Option String := none

namespace SettlementSaga

def addStep (saga : SettlementSaga σ ε) (step : SagaStep σ ε) : SettlementSaga σ ε :=
  { saga with steps := saga.steps ++ [step] }

def compensate (saga : SettlementSaga σ ε) (w : World σ ε) : World σ ε :=
  -- a compensation that rejects is only logged
  saga.executed.reverse.foldl (fun w step => (w.await (.compensation step)).2) w

def executeFrom (saga : SettlementSaga σ ε) :
    List (SagaStep σ ε) → World σ ε → Result × SettlementSaga σ ε × World σ ε
  | [],w =>
    ({ state := if saga.executed.length = saga.steps.length then .COMPLETED else .PARTIAL },saga,w)
  | step :: rest,w =>
    match w.await (.action step) with
    | (.ok _,w) => executeFrom { saga with executed := saga.executed ++ [step] } rest w
    | (.error _,w) => ({ state := .FAILED, failedStep := some step.name },saga,saga.compensate w)

def execute (saga : SettlementSaga σ ε) (w : World σ ε) : Result × SettlementSaga σ ε × World σ ε :=
  executeFrom { saga with executed := [] } saga.steps w

end SettlementSaga

/-- The state after all the actions, if none of them rejects. -/
def afterActions : List (SagaStep σ ε) → σ → Option σ
  | [],s => some s
  | step :: rest,s =>
    match step.action s with
    | (.ok _,s) => afterActions rest s
    | (.error _,_) => none

/-- What one execution may do with the steps that are left: `done` have run before them. -/
def AllOrCompensated (done rest : List (SagaStep σ ε)) (w : World σ ε) (result : Result)
    (calls : List (Call σ ε)) : Prop :=
  (∃ s, afterActions rest w.state = some s ∧ result = { state := .COMPLETED } ∧
    calls = w.calls ++ rest.map .action) ∨
  ∃ before step after s e, rest = before ++ step :: after ∧
    afterActions before w.state = some s ∧ (step.action s).1 = .error e ∧
    result = { state := .FAILED, failedStep := some step.name } ∧
    calls = w.calls ++ (before ++ [step]).map .action ++ (done ++ before).reverse.map .compensation

open SettlementSaga
variable (rest : List (SagaStep σ ε)) (saga : SettlementSaga σ ε) (w : World σ ε)

lemma calls_compensate :
    (saga.compensate w).calls = w.calls ++ saga.executed.reverse.map .compensation := by
  rw [compensate]
  induction saga.executed.reverse generalizing w with
  | nil => simp
  | cons step rest ih =>
    rw [foldl_cons,ih]
    simp [World.await]

lemma executeFrom_spec (ht : saga.steps = saga.executed ++ rest) :
    AllOrCompensated saga.executed rest w (saga.executeFrom rest w).1
    (saga.executeFrom rest w).2.2.calls := by
  induction rest generalizing saga w with
  | nil => exact .inl ⟨w.state,rfl,by simp [executeFrom,ht],by simp [executeFrom]⟩
  | cons step rest ih =>
    rcases ha : step.action w.state with ⟨_ | _,s⟩
    case error e =>
      refine .inr ⟨[],step,rest,w.state,e,rfl,rfl,by rw [ha],?_,?_⟩ <;>
        simp [executeFrom,World.await,Call.body,ha,calls_compensate]
    case ok =>
      -- the step joins those to compensate, and the rest goes on from the state it left
      have hrs := ih { saga with executed := saga.executed ++ [step] }
        ⟨s,w.calls ++ [.action step]⟩ (by simp [ht])
      have hg : saga.executeFrom (step :: rest) w =
          executeFrom { saga with executed := saga.executed ++ [step] } rest
            ⟨s,w.calls ++ [.action step]⟩ := by
        simp [executeFrom,World.await,Call.body,ha]
      rw [hg]
      obtain ⟨s',hs,hr,hc⟩ | ⟨bef,fl,after,s',e,rfl,hs,he,hr,hc⟩ := hrs
      · exact .inl ⟨s',by simpa [afterActions,ha] using hs,hr,by simp [hc]⟩
      · exact .inr ⟨step :: bef,fl,after,s',e,rfl,
          by simpa [afterActions,ha] using hs,he,hr,by simp [hc]⟩

lemma steps_executeFrom : (saga.executeFrom rest w).2.1.steps = saga.steps := by
  induction rest generalizing saga w with
  | nil => rfl
  | cons step rest ih =>
    rw [executeFrom]
    split
    · exact ih ..
    · rfl

/-- An execution completes, or undoes what it did; what it leaves does not matter to the next. -/
theorem saga_all_or_compensated (saga : SettlementSaga σ ε) (w : World σ ε) :
    AllOrCompensated [] saga.steps w (saga.execute w).1 (saga.execute w).2.2.calls ∧
      ∀ w', (saga.execute w).2.1.execute w' = execute { steps := saga.steps } w' := by
  refine ⟨executeFrom_spec saga.steps { saga with executed := [] } w rfl,fun w' => ?_⟩
  have hs := steps_executeFrom saga.steps { saga with executed := [] } w
  simp only [execute] at hs ⊢
  rw [hs]

end DukaPay.Backend.Saga
