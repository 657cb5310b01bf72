import DukaPay.Contractlib.Machine

/-! The resolution of a dispute: the check, the update and the event of a call are separate
statements. -/
namespace DukaPay.Backend.Disputes
open Contractlib

inductive Status
  | opened | resolved | rejected
  deriving DecidableEq

inductive Call
  | confirm | reverse | reject
  deriving DecidableEq

inductive Phase
  | idle | selected | updated | ended
  deriving DecidableEq

/-- For the statements, `left` counts how often the dispute has left the open status. -/
structure World (κ : Type) where
  status : Status
  events : List Call
  phase : κ → Phase
  resolver : Option Call
  left : Nat

inductive Action (κ : Type)
  | select (k : κ)
  | update (k : κ) (fails : Bool)
  | insert (k : κ)

/-- The columns of `contract_events` that may not be null. -/
def notNull : List String :=
  ["event_id","event_type","ledger","ledger_closed_at","tx_hash","contract_id"]

/-- The columns to which the statement of `resolveLoanDispute` gives a value. -/
def given : List String := ["loan_id","address","event_type","ledger_closed_at"]

variable {κ : Type} [DecidableEq κ] (calls : κ → Call)

def step (w : World κ) : Action κ → World κ
  | .select k =>
    if w.phase k = .idle then
      let next := if w.status = .opened then .selected else .ended
      { w with phase := Function.update w.phase k next }
    else w
  | .update k fails =>
    if w.phase k = .selected then
      if fails then { w with phase := Function.update w.phase k .ended }
      else
        let left := if w.status = .opened then w.left + 1 else w.left
        if calls k = .reject then
          ⟨.rejected,w.events,Function.update w.phase k .ended,w.resolver,left⟩
        else ⟨.resolved,w.events,Function.update w.phase k .updated,some (calls k),left⟩
    else w
  | .insert k =>
    if w.phase k = .updated then
      { w with
        events := if notNull ⊆ given then calls k :: w.events else w.events
        phase := Function.update w.phase k .ended }
    else w

structure Exclusive (w : World κ) : Prop where
  once : w.left ≤ 1
  paired : (∀ k, w.phase k = .idle ∨ w.phase k = .ended) →
    (w.status = .resolved ↔ ∃ call, w.events = [call] ∧ w.resolver = some call)

/-- Only rejections succeed with their update. -/
def Rejects (w : World κ) : Action κ → Prop
  | .update k fails => w.phase k = .selected → fails = false → calls k = .reject
  | _ => True

def Inv (w : World κ) : Prop :=
  w.left = (if w.status = .opened then 0 else 1) ∧ w.status ≠ .resolved ∧ w.events = []

variable {calls}

lemma inv_step (w act) (h : Inv w) (hr : Rejects calls w act) : Inv (step calls w act) := by
  cases act with
  | select =>
    dsimp only [step]
    split <;> exact h
  | update k fails =>
    dsimp only [step]
    split
    · next hs =>
      split
      · exact h
      · next hf =>
        rw [if_pos (hr hs (Bool.eq_false_iff.mpr hf))]
        refine ⟨?_,nofun,h.2.2⟩
        have hl := h.1
        dsimp only
        split <;> simp_all
    · exact h
  | insert =>
    dsimp only [step]
    split
    · rw [if_neg (show ¬ notNull ⊆ given by decide)]
      exact h
    · exact h

/-- **A dispute is settled once**, if only rejections succeed with their update. -/
theorem dispute_exclusive (w : World κ) (h : Inv w) (actions : List (Action κ))
    (hreject : Always (step calls) (Rejects calls) w actions) :
    Exclusive (actions.foldl (step calls) w) := by
  have hn := hreject.foldl inv_step h
  refine ⟨?_,fun _ => ⟨fun hr => absurd hr hn.2.1,fun ⟨call,hc,_⟩ => ?_⟩⟩
  · rw [hn.1]
    split <;> decide
  · rw [hn.2.2] at hc
    cases hc

def opened {κ : Type} : World κ := ⟨.opened,[],fun _ => .idle,none,0⟩

/-- Two rejections have both seen the dispute open, and a confirmation whose update fails. -/
def racing : World Nat :=
  [.select 0,.select 1,.select 2,.update 2 true,.update 0 false,.update 1 false].foldl
    (step fun k => if k = 2 then .confirm else .reject) opened

theorem dispute_exclusive_racing : racing.status = .rejected ∧ Exclusive racing :=
  ⟨by decide,dispute_exclusive opened ⟨rfl,nofun,rfl⟩ _ ⟨trivial,trivial,trivial,nofun,
    fun _ _ => rfl,fun _ _ => rfl,trivial⟩⟩

/-- The event of a resolved dispute is refused. -/
theorem resolved_without_event : ¬ Exclusive ([.select (),.update () false,
    .insert ()].foldl (step fun _ => .confirm) opened) := by
  intro h
  obtain ⟨_,hc,-⟩ := (h.paired fun _ => .inr rfl).mp rfl
  cases hc

end DukaPay.Backend.Disputes
