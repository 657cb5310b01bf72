import DukaPay.Contractlib.Machine

/-! A run goes through the rows that are not reconciled: a row is matched by any later score event
of its borrower, and becomes partial and then failed if none arrives in time. -/
namespace DukaPay.Backend.Settlements
open Contractlib List Option

inductive EventKind
  | LoanApproved | LoanRepaid | LoanDefaulted | ScoreUpdated | ScoreDecreased | other
  deriving DecidableEq

def EventKind.name : EventKind → String
  | LoanApproved => "LoanApproved"
  | LoanRepaid => "LoanRepaid"
  | LoanDefaulted => "LoanDefaulted"
  | ScoreUpdated => "ScoreUpdated"
  | ScoreDecreased => "ScoreDecreased"
  | other => ""

structure ContractEvent where
  eventId : String
  eventType : EventKind
  loanId : Option Nat
  address : Option String
  amount : Option Int
  ledger : Nat

inductive ReconciliationState
  | pending | half_applied | reconciled | failed
  | PENDING | PARTIAL | COMPLETED | FAILED
  deriving DecidableEq

inductive SettlementState
  | PENDING | PARTIAL | COMPLETED | FAILED
  deriving DecidableEq

def normalizeState : ReconciliationState → SettlementState
  | .pending | .PENDING => .PENDING
  | .half_applied | .PARTIAL => .PARTIAL
  | .reconciled | .COMPLETED => .COMPLETED
  | .failed | .FAILED => .FAILED

def toLegacyState : SettlementState → ReconciliationState
  | .PENDING => .pending
  | .PARTIAL => .half_applied
  | .COMPLETED => .reconciled
  | .FAILED => .failed

@[simp] lemma normalizeState_toLegacyState (state) :
    normalizeState (toLegacyState state) = state := by
  cases state <;> rfl

inductive Operation
  | approve | repay | default

/-- A row of `cross_contract_reconciliation`. Its id is its position: rows are never deleted. -/
structure Row where
  intentKey : String
  borrower : String
  operation : Operation
  disbursementLedger : Nat
  expectedScoreDelta : Int
  state : ReconciliationState
  scoreApplied : Bool
  scoreLedger : Option Nat
  attempts : Nat

def Row.settlementState (row : Row) : SettlementState := normalizeState row.state

structure Config where
  maxRowsPerRun : Nat
  staleAttempts : Nat

structure World where
  events : List ContractEvent
  rows : List Row
  queue : List Nat
  compensating : Option Nat

def World.empty : World := ⟨[],[],[],none⟩

/-! ### Statements -/

def operation : EventKind → Option Operation
  | .LoanApproved => some .approve
  | .LoanRepaid => some .repay
  | .LoanDefaulted => some .default
  | _ => none

def expectedScoreDelta (event : ContractEvent) : Operation → Int
  | .repay => max 0 (event.amount.getD 0 / 100)
  | .default => -50
  | .approve => 0

def intentKey (event : ContractEvent) : String :=
  event.eventType.name ++ ":" ++ (event.loanId.map toString).getD "-" ++ ":" ++ event.eventId

def pendingRow (event : ContractEvent) : Option Row := do
  let op ← operation event.eventType
  let address ← event.address
  if address = "" then none
  else some {
    intentKey := intentKey event
    borrower := address
    operation := op
    disbursementLedger := event.ledger
    expectedScoreDelta := expectedScoreDelta event op
    state := .pending
    scoreApplied := false
    scoreLedger := none
    attempts := 0 }

def insertRow (rows : List Row) (row : Row) : List Row :=
  if ∃ r ∈ rows, r.intentKey = row.intentKey then rows else rows ++ [row]

def backfillPendingRows (events : List ContractEvent) (rows : List Row) : Option (List Row) :=
  let wanted := events.filterMap pendingRow
  if ∀ row ∈ wanted, row.expectedScoreDelta ≤ 2147483647 then some (wanted.foldl insertRow rows)
  else none

def Fetched (state : ReconciliationState) : Prop :=
  state ∈ [.pending,.half_applied,.PENDING,.PARTIAL,.reconciled,.failed] ∧
    state ∉ [ReconciliationState.reconciled,.COMPLETED]

instance (state : ReconciliationState) : Decidable (Fetched state) := instDecidableAnd

def fetchUnresolvedRows (cfg : Config) (rows : List Row) : List Nat :=
  ((List.range rows.length).filter fun id =>
    decide (∃ row ∈ rows[id]?, Fetched row.state)).take cfg.maxRowsPerRun

variable (borrower : String)

def IsScore (event : ContractEvent) : Prop :=
  event.address = some borrower ∧
    (event.eventType = .ScoreUpdated ∨ event.eventType = .ScoreDecreased)

instance (borrower : String) (event : ContractEvent) : Decidable (IsScore borrower event) :=
  instDecidableAnd

def findMatchingScoreLedger (events : List ContractEvent) (borrower : String)
    (sinceLedger : Nat) : Option Nat :=
  ((events.filter fun e => decide (IsScore borrower e ∧ sinceLedger ≤ e.ledger)).map
    ContractEvent.ledger).min?

def Row.markReconciled (scoreLedger : Option Nat) (applied : Bool) (row : Row) : Row :=
  { row with state := .reconciled, scoreApplied := applied, scoreLedger, attempts := row.attempts + 1 }

def Row.markState (state : SettlementState) (row : Row) : Row :=
  { row with state := toLegacyState state, attempts := row.attempts + 1 }

def compensationHandler : Operation → String
  | .repay | .default => "score_update"
  | .approve => "lending_pool_deposit"

def compensationHandlers : List String :=
  ["lending_pool_deposit","lending_pool_withdraw","agent_vault_collateral","loan_manager_repay",
    "score_update"]

def runCompensation (operation : String) : Bool := compensationHandlers.contains operation

/-! ### Runs -/

inductive Action
  | index (event : ContractEvent)
  | start
  | process
  | compensate (lost : Bool)
  | abort

def processRow (cfg : Config) (events : List ContractEvent) (row : Row) : Row :=
  if row.expectedScoreDelta = 0 then row.markReconciled none false
  else match findMatchingScoreLedger events row.borrower row.disbursementLedger with
    | some scoreLedger => row.markReconciled (some scoreLedger) true
    | none =>
      if cfg.staleAttempts ≤ row.attempts + 1 then row.markState .PARTIAL
      else row.markState .PENDING

def step (cfg : Config) (w : World) : Action → World
  | .index event => { w with events := w.events ++ [event] }
  | .start =>
    if w.queue = [] ∧ w.compensating = none then
      match backfillPendingRows w.events w.rows with
      | some rows => { w with rows, queue := fetchUnresolvedRows cfg rows }
      | none => w
    else w
  | .process =>
    match w.compensating,w.queue with
    | none,id :: queue =>
      let rows := w.rows.modify id (processRow cfg w.events)
      -- a row that has become partial is compensated before the next one is processed
      let stuck := (rows[id]?).any fun row => row.settlementState = .PARTIAL
      { w with rows, queue, compensating := if stuck then some id else none }
    | _,_ => w
  | .compensate lost =>
    match w.compensating with
    | some id =>
      let handled := (w.rows[id]?).any fun row => runCompensation (compensationHandler row.operation)
      -- an error of the update is caught, and the row stays partial
      { w with
        rows := if handled ∧ lost = false then w.rows.modify id (Row.markState .FAILED) else w.rows
        compensating := none }
    | none => w
  | .abort => { w with queue := [], compensating := none }

/-! ### One-to-one and terminal -/

def Applied (row : Row) : Prop :=
  row.borrower = borrower ∧ row.settlementState = .COMPLETED ∧ row.scoreApplied = true

instance (borrower : String) (row : Row) : Decidable (Applied borrower row) := instDecidableAnd

def appliedRows (w : World) : Nat :=
  w.rows.countP fun row => decide (Applied borrower row)

def scoreEvents (w : World) : Nat :=
  w.events.countP fun event => decide (IsScore borrower event)

inductive Edge : SettlementState → SettlementState → Prop
  | stalled : Edge .PENDING .PARTIAL
  | matched : Edge .PENDING .COMPLETED
  | completed : Edge .PARTIAL .COMPLETED
  | failed : Edge .PARTIAL .FAILED

structure Advances (row row' : Row) : Prop where
  edge : row'.settlementState = row.settlementState ∨ Edge row.settlementState row'.settlementState
  final : row.settlementState = .COMPLETED ∨ row.settlementState = .FAILED → row' = row

def Orderly (w w' : World) : Prop :=
  ∀ (id : Nat) (row : Row), w.rows[id]? = some row → ∃ row', w'.rows[id]? = some row' ∧
    Advances row row'

def OneToOne (w : World) : Prop := ∀ borrower, appliedRows borrower w ≤ scoreEvents borrower w

def Sound (cfg : Config) : World → List Action → Prop
  | w,[] => OneToOne w
  | w,action :: actions =>
    OneToOne w ∧ Orderly w (step cfg w action) ∧ Sound cfg (step cfg w action) actions

def Admissible (w : World) : Action → Prop
  | .process => ∀ id ∈ w.queue.head?, ∀ row ∈ w.rows[id]?, row.settlementState ≠ .FAILED ∧
      (row.expectedScoreDelta ≠ 0 →
        findMatchingScoreLedger w.events row.borrower row.disbursementLedger ≠ none →
          appliedRows row.borrower w < scoreEvents row.borrower w)
  | _ => True

section
variable {rows : List Row} {row : Row} {id : Nat} {f : Row → Row}

lemma countP_modify_le (p) (rows : List Row) (id f) :
    (rows.modify id f).countP p ≤ rows.countP p + 1 := by
  induction rows generalizing id with
  | nil => simp
  | cons row rows ih =>
    cases id with
    | zero =>
      rw [modify_zero_cons,countP_cons,countP_cons]
      split <;> split <;> omega
    | succ id =>
      have hr := ih id
      rw [modify_succ_cons,countP_cons,countP_cons]
      omega

lemma countP_modify_le_of_imp {p} (h : ∀ row ∈ rows[id]?, p (f row) → p row) :
    (rows.modify id f).countP p ≤ rows.countP p := by
  induction rows generalizing id with
  | nil => simp
  | cons row rows ih =>
    cases id with
    | zero =>
      have hw := h row rfl
      rw [modify_zero_cons,countP_cons,countP_cons]
      split <;> split <;> simp_all
    | succ =>
      have he := ih fun r hr => h r hr
      rw [modify_succ_cons,countP_cons,countP_cons]
      omega

lemma orderly_modify {w w' : World} (hs : w'.rows = w.rows.modify id f)
    (h : ∀ row ∈ w.rows[id]?, Advances row (f row)) : Orderly w w' := by
  intro j row hr
  rw [hs,getElem?_modify]
  obtain rfl | hj := eq_or_ne id j
  · exact ⟨f row,by simp [hr],h row hr⟩
  · exact ⟨row,by simp [hj,hr],.inl rfl,fun _ => rfl⟩

lemma orderly_append {w w' : World} {new} (hs : w'.rows = w.rows ++ new) : Orderly w w' := by
  intro id row hr
  have hd := (List.getElem?_eq_some_iff.mp hr).1
  exact ⟨row,by rw [hs,List.getElem?_append_left hd,hr],.inl rfl,fun _ => rfl⟩

end

section

lemma pendingRow_pending {ev row} (h : pendingRow ev = some row) :
    row.settlementState = .PENDING := by
  simp only [pendingRow,bind_eq_bind,bind_eq_some_iff] at h
  obtain ⟨_,-,_,-,h⟩ := h
  split at h
  · cases h
  · cases h
    rfl

lemma foldl_insertRow (wanted rows : List Row) :
    ∃ new, wanted.foldl insertRow rows = rows ++ new ∧ ∀ row ∈ new, row ∈ wanted := by
  induction wanted generalizing rows with
  | nil => exact ⟨[],(append_nil rows).symm,fun row h => h⟩
  | cons row wanted ih =>
    obtain ⟨new,hw,hm⟩ := ih (insertRow rows row)
    rw [foldl_cons,hw,insertRow]
    split
    · exact ⟨new,rfl,fun r hr => mem_cons_of_mem row (hm r hr)⟩
    · refine ⟨row :: new,by rw [append_assoc,singleton_append],?_⟩
      rw [forall_mem_cons]
      exact ⟨mem_cons_self,fun r hr => mem_cons_of_mem row (hm r hr)⟩

lemma backfillPendingRows_eq_some {evs rows rows'} (h : backfillPendingRows evs rows = some rows') :
    ∃ new, rows' = rows ++ new ∧ ∀ row ∈ new, row.settlementState = .PENDING := by
  rw [backfillPendingRows] at h
  split at h
  · cases h
    obtain ⟨new,hw,hm⟩ := foldl_insertRow (evs.filterMap pendingRow) rows
    refine ⟨new,hw,fun row hr => ?_⟩
    obtain ⟨_,-,he⟩ := mem_filterMap.mp (hm row hr)
    exact pendingRow_pending he
  · cases h

lemma not_completed_of_fetched {state} (h : Fetched state) : normalizeState state ≠ .COMPLETED := by
  cases state <;> revert h <;> decide

end

structure Inv (cfg : Config) (w : World) : Prop where
  nodup : w.queue.Nodup
  queued : ∀ id ∈ w.queue, ∀ row ∈ w.rows[id]?, row.settlementState ≠ .COMPLETED
  compensated : ∀ id ∈ w.compensating, id ∉ w.queue ∧
    ∀ row ∈ w.rows[id]?, row.settlementState = .PARTIAL
  stale : ∀ row ∈ w.rows, row.settlementState = .PARTIAL → cfg.staleAttempts ≤ row.attempts + 1
  oneToOne : OneToOne w

section
variable {cfg : Config} {w : World}

lemma inv_empty (cfg : Config) : Inv cfg .empty where
  nodup := nodup_nil
  queued := by simp [World.empty]
  compensated := by simp [World.empty]
  stale := by simp [World.empty]
  oneToOne := fun _ => Nat.le_refl 0

lemma inv_index (h : Inv cfg w) (ev : ContractEvent) : Inv cfg (step cfg w (.index ev)) where
  nodup := h.nodup
  queued := h.queued
  compensated := h.compensated
  stale := h.stale
  oneToOne borrower := by
    refine Nat.le_trans (h.oneToOne borrower) ?_
    show w.events.countP _ ≤ (w.events ++ [ev]).countP _
    rw [countP_append]
    exact Nat.le_add_right _ _

lemma inv_start (h : Inv cfg w) : Inv cfg (step cfg w .start) ∧ Orderly w (step cfg w .start) := by
  have hs : Orderly w w := orderly_append (append_nil _).symm
  rw [step]
  split
  · next hl =>
    cases hrs : backfillPendingRows w.events w.rows with
    | none => exact ⟨h,hs⟩
    | some =>
      obtain ⟨new,rfl,hw⟩ := backfillPendingRows_eq_some hrs
      refine ⟨⟨?_,?_,?_,?_,?_⟩,orderly_append rfl⟩
      · exact (nodup_range.filter _).sublist (take_sublist _ _)
      · intro id hd row hrw
        have hm := mem_filter.mp (mem_of_mem_take hd)
        obtain ⟨_,hr,hf⟩ := of_decide_eq_true hm.2
        cases Option.some.inj (hr.symm.trans hrw)
        exact not_completed_of_fetched hf
      · simp [hl.2]
      · intro row hrw hpa
        rcases mem_append.mp hrw with ho | ha
        · exact h.stale row ho hpa
        · cases (hw row ha).symm.trans hpa
      · intro borrower
        have hz : new.countP (fun row => decide (Applied borrower row)) = 0 := by
          rw [countP_eq_zero]
          intro row hrw hp
          cases (hw row hrw).symm.trans (of_decide_eq_true hp).2.1
        have ho := h.oneToOne borrower
        rw [appliedRows] at ho ⊢
        rwa [countP_append,hz]
  · exact ⟨h,hs⟩

lemma inv_abort (h : Inv cfg w) : Inv cfg (step cfg w .abort) where
  nodup := nodup_nil
  queued := by simp [step]
  compensated := by simp [step]
  stale := h.stale
  oneToOne := h.oneToOne

variable {row : Row}

lemma processRow_advances (evs)
    (ho : row.settlementState ≠ .COMPLETED) (hf : row.settlementState ≠ .FAILED)
    (hs : row.settlementState = .PARTIAL → cfg.staleAttempts ≤ row.attempts + 1) :
    Advances row (processRow cfg evs row) := by
  refine ⟨?_,fun hn => absurd hn (not_or.mpr ⟨ho,hf⟩)⟩
  have hc (scoreLedger : Option Nat) (applied : Bool) :
      Edge row.settlementState (row.markReconciled scoreLedger applied).settlementState := by
    show Edge row.settlementState .COMPLETED
    cases ht : row.settlementState with
    | PENDING => exact .matched
    | PARTIAL => exact .completed
    | COMPLETED => exact absurd ht ho
    | FAILED => exact absurd ht hf
  have hm (state : SettlementState) : (row.markState state).settlementState = state :=
    normalizeState_toLegacyState state
  rw [processRow]
  split
  · exact .inr (hc _ _)
  split
  · exact .inr (hc _ _)
  split
  · rw [hm]
    cases ht : row.settlementState with
    | PENDING => exact .inr .stalled
    | PARTIAL => exact .inl rfl
    | COMPLETED => exact absurd ht ho
    | FAILED => exact absurd ht hf
  · next hr =>
    rw [hm]
    cases ht : row.settlementState with
    | PENDING => exact .inl rfl
    | PARTIAL => exact absurd (hs ht) hr
    | COMPLETED => exact absurd ht ho
    | FAILED => exact absurd ht hf

lemma processRow_stale (evs) (h : (processRow cfg evs row).settlementState = .PARTIAL) :
    cfg.staleAttempts ≤ (processRow cfg evs row).attempts + 1 := by
  revert h
  rw [processRow]
  split
  · exact fun h => by cases h
  split
  · exact fun h => by cases h
  split
  · next hs => exact fun _ => Nat.le_succ_of_le hs
  · exact fun h => by cases h

lemma applied_processRow {evs borrower} (h : Applied borrower (processRow cfg evs row)) :
    row.borrower = borrower ∧ row.expectedScoreDelta ≠ 0 ∧
    findMatchingScoreLedger evs row.borrower row.disbursementLedger ≠ none := by
  revert h
  rw [processRow]
  split
  · exact fun h => by cases h.2.2
  · next hd =>
    split
    · next scoreLedger hm =>
      exact fun h => ⟨h.1,hd,by rw [hm]; exact some_ne_none _⟩
    split
    · exact fun h => by cases h.2.1
    · exact fun h => by cases h.2.1

lemma getElem?_modify_ne {rows : List Row} {id j f} (h : j ≠ id) :
    (rows.modify id f)[j]? = rows[j]? := by
  rw [getElem?_modify]
  simp [h.symm]

lemma mem_modify {rows : List Row} {id f} (h : row ∈ rows.modify id f) :
    row ∈ rows ∨ ∃ r ∈ rows[id]?, row = f r := by
  obtain ⟨j,hj⟩ := List.mem_iff_getElem?.mp h
  obtain rfl | hid := eq_or_ne j id
  · rw [List.getElem?_modify,Option.map_eq_map,Option.map_eq_some_iff] at hj
    obtain ⟨r,hr,hf⟩ := hj
    rw [if_pos rfl] at hf
    exact .inr ⟨r,hr,hf.symm⟩
  · rw [getElem?_modify_ne hid] at hj
    exact .inl (List.mem_of_getElem? hj)

lemma inv_process (h : Inv cfg w) (ha : Admissible w .process) :
    Inv cfg (step cfg w .process) ∧ Orderly w (step cfg w .process) := by
  have hs : Orderly w w := orderly_append (append_nil _).symm
  cases hc : w.compensating with
  | some =>
    have hst : step cfg w .process = w := by rw [step,hc]
    rw [hst]
    exact ⟨h,hs⟩
  | none =>
    cases hq : w.queue with
    | nil =>
      have hst : step cfg w .process = w := by rw [step,hc,hq]
      rw [hst]
      exact ⟨h,hs⟩
    | cons id =>
      obtain ⟨hi,hnd⟩ := nodup_cons.mp (hq ▸ h.nodup)
      have hop := h.queued id (by rw [hq]; exact mem_cons_self)
      have hx := ha id (by rw [hq]; rfl)
      have ho (row : Row) (hw : row ∈ w.rows[id]?) := h.stale row (mem_of_getElem? hw)
      rw [step,hc,hq]
      refine ⟨⟨hnd,?_,?_,?_,?_⟩,orderly_modify rfl fun row hw =>
        processRow_advances w.events (hop row hw) (hx row hw).1 (ho row hw)⟩
      · intro j hj row hw
        have hne : j ≠ id := fun he => hi (he ▸ hj)
        rw [getElem?_modify_ne hne] at hw
        exact h.queued j (by rw [hq]; exact mem_cons_of_mem id hj) row hw
      · intro j hj
        dsimp only at hj
        split at hj
        · next hpa =>
          cases Option.some.inj hj
          refine ⟨hi,fun row hw => ?_⟩
          rw [hw] at hpa
          simpa using hpa
        · cases hj
      · intro row hw hpa
        rcases mem_modify hw with hm | ⟨r,hr,rfl⟩
        · exact h.stale row hm hpa
        · exact processRow_stale w.events hpa
      · intro borrower
        have hn := h.oneToOne borrower
        by_cases hmt : ∃ row ∈ w.rows[id]?, Applied borrower (processRow cfg w.events row)
        · obtain ⟨row,hw,hp⟩ := hmt
          obtain ⟨rfl,hd,hf⟩ := applied_processRow hp
          have ht := (hx row hw).2 hd hf
          have hl := countP_modify_le (fun r => decide (Applied row.borrower r)) w.rows id
            (processRow cfg w.events)
          exact Nat.le_trans hl ht
        · refine Nat.le_trans (countP_modify_le_of_imp fun row hw hp => ?_) hn
          exact absurd ⟨row,hw,of_decide_eq_true hp⟩ hmt

lemma inv_compensate (h : Inv cfg w) (lost) :
    Inv cfg (step cfg w (.compensate lost)) ∧ Orderly w (step cfg w (.compensate lost)) := by
  have hs : Orderly w w := orderly_append (append_nil _).symm
  cases hc : w.compensating with
  | none =>
    have ht : step cfg w (.compensate lost) = w := by rw [step,hc]
    rw [ht]
    exact ⟨h,hs⟩
  | some id =>
    obtain ⟨hd,hp⟩ := h.compensated id hc
    rw [step,hc]
    dsimp only
    split
    · refine ⟨⟨h.nodup,?_,by simp,?_,?_⟩,orderly_modify rfl fun row hw => ?_⟩
      · intro j hj row hw
        have hn : j ≠ id := fun he => hd (he ▸ hj)
        rw [getElem?_modify_ne hn] at hw
        exact h.queued j hj row hw
      · intro row hw hst
        rcases mem_modify hw with hm | ⟨r,hr,rfl⟩
        · exact h.stale row hm hst
        · cases hst
      · intro borrower
        refine Nat.le_trans (countP_modify_le_of_imp fun row hw ha => ?_) (h.oneToOne borrower)
        cases (of_decide_eq_true ha).2.1
      · have hst := hp row hw
        refine ⟨Or.inr ?_,fun hf => ?_⟩
        · rw [hst]
          exact .failed
        · rw [hst] at hf
          rcases hf with h | h <;> cases h
    · exact ⟨⟨h.nodup,h.queued,by simp,h.stale,h.oneToOne⟩,hs⟩

lemma inv_step (h : Inv cfg w) {act} (ha : Admissible w act) :
    Inv cfg (step cfg w act) ∧ Orderly w (step cfg w act) := by
  cases act with
  | index ev => exact ⟨inv_index h ev,orderly_append (append_nil _).symm⟩
  | start => exact inv_start h
  | process => exact inv_process h ha
  | compensate lost => exact inv_compensate h lost
  | abort => exact ⟨inv_abort h,orderly_append (append_nil _).symm⟩

lemma sound_of_inv (h : Inv cfg w) {actions} (ha : Always (step cfg) Admissible w actions) :
    Sound cfg w actions := by
  induction actions generalizing w with
  | nil => exact h.oneToOne
  | cons act actions ih =>
    obtain ⟨hn,ho⟩ := inv_step h ha.1
    exact ⟨h.oneToOne,ho,ih hn ha.2⟩

end

/-- **Reconciliation**: if no run comes back to a failed row, and a row is only matched while its
borrower has score events to spare, then matches are one-to-one, rows move along the state machine
and completed and failed rows are never changed. -/
theorem reconciliation_sound (cfg : Config) (actions : List Action)
    (h : Always (step cfg) Admissible .empty actions) : Sound cfg .empty actions :=
  sound_of_inv (inv_empty cfg) h

def repaid (id : String) (loan : Nat) : ContractEvent :=
  ⟨id,.LoanRepaid,some loan,some "GB",some 500,10⟩

def scored (id : String) : ContractEvent := ⟨id,.ScoreUpdated,none,some "GB",none,10⟩

def repaidThenScored : List Action :=
  [.index (repaid "a" 1),.start,.process,.index (scored "b"),.start,.process]

theorem reconciliation_sound_repaid : Sound ⟨500,3⟩ .empty repaidThenScored := by
  refine reconciliation_sound ⟨500,3⟩ repaidThenScored ⟨trivial,trivial,?_,trivial,trivial,?_,
    trivial⟩
  · intro id hid row hr
    cases hid
    cases hr
    exact ⟨by decide,fun _ hf => absurd (by rfl) hf⟩
  · intro id hid row hr
    cases hid
    cases hr
    exact ⟨by decide,fun _ _ => by decide⟩

/-- **One score event for the repayments of two loans**: both are reconciled by it. -/
theorem one_event_matches_twice :
    ¬ ∀ (cfg : Config) (actions : List Action), Sound cfg .empty actions := by
  intro h
  have hs := h ⟨500,3⟩ [.index (repaid "a" 1),.index (repaid "b" 2),.index (scored "c"),.start,
    .process,.process]
  have hc := hs.2.2.2.2.2.2.2.2.2.2.2.2 "GB"
  revert hc
  decide

end DukaPay.Backend.Settlements
