import DukaPay.Backend.OverdueLoans
import DukaPay.Money.Text

/-! `getLoanDetails` derives the status of a loan from the sums of its events and from interest that
accrues until the cursor, whether the loan was closed or not. -/
namespace DukaPay.Backend.LoanRows
open Contractlib Money JavaScript List Option Numeral

inductive DisplayedStatus
  | pending_indexing | defaulted | active | repaid
  deriving DecidableEq

structure LoanTermConfig where
  defaultTermLedgers : Nat
  defaultInterestRateBps : Nat

section
variable (config : LoanTermConfig) (mode : RoundingMode)

def toWholeStroops (amount : Option String) : Except MoneyError Int :=
  match amount.filter (· ≠ "") with
  | none => .ok 0
  | some text => do Decimal.roundDiv (← Decimal.toStroops text mode) DukaPay.stroopScale mode

def orDefault (value : Option JsNumber) (fallback : Nat) : Int :=
  match value with
  | some (.integer n) => if n = 0 then fallback else n
  | _ => fallback

/-- The rows of a loan in the order of their ledgers; the log has the latest first. -/
def eventsOf (rows : List EventRow) (loanId : Nat) : List EventRow :=
  (rows.filter (·.loan = some (loanId : Int))).reverse.insertionSort (·.ledger ≤ ·.ledger)

variable (events : List EventRow)

def approvalEvent : Option EventRow :=
  (events.filter (·.eventType = .LoanApproved)).getLast?

def approvedLedger : Nat := ((approvalEvent events).map (·.ledger)).getD 0

def isPending (currentLedger : Nat) : Bool :=
  approvedLedger events = 0 ∨ currentLedger < approvedLedger events

def totalOwed (currentLedger : Nat) : Except MoneyError Int := do
  let principal ← toWholeStroops mode
    ((events.find? (·.eventType = .LoanRequested)).bind (·.amount))
  let totalRepaid ← (events.filter (·.eventType = .LoanRepaid)).foldlM
    (fun sum event => do return sum + (← toWholeStroops mode event.amount)) 0
  let approval := approvalEvent events
  let rateBps := orDefault (approval.bind (·.interestRateBps)) config.defaultInterestRateBps
  let termLedgers := orDefault (approval.bind (·.termLedgers)) config.defaultTermLedgers
  let elapsedLedgers : Nat := currentLedger - approvedLedger events
  let accruedInterest ← if isPending events currentLedger then pure 0
    else Decimal.roundDiv (principal * rateBps * elapsedLedgers) (10000 * termLedgers) mode
  return principal + accruedInterest - totalRepaid

/-- The status of a loan without an open dispute; nothing is a loan that is not found. -/
def getLoanDetails (rows : List EventRow) (loanId currentLedger : Nat) :
    Except MoneyError (Option DisplayedStatus) := do
  let events := eventsOf rows loanId
  if events = [] then return none
  let owed ← totalOwed config mode events currentLedger
  return some (if isPending events currentLedger then .pending_indexing
    else if events.any (·.eventType = .LoanDefaulted) then .defaulted
    else if 0 < owed then .active
    else .repaid)

end

/-- What is displayed is the status on the chain. -/
def Follows (shown : Except MoneyError (Option DisplayedStatus)) (status : LoanStatus) : Prop :=
  ∃ s, shown = .ok (some s) ∧ (s = .repaid ↔ status = .Repaid) ∧
    (s = .defaulted ↔ status = .Defaulted ∨ status = .Liquidated)

def EventRow.value (row : EventRow) : Int :=
  (row.amount.bind fun text => stringToBigInt text.toList).getD 0

def requested (events : List EventRow) : Int :=
  ((events.find? (·.eventType = .LoanRequested)).map EventRow.value).getD 0

def repaid (events : List EventRow) : Int :=
  ((events.filter (·.eventType = .LoanRepaid)).map EventRow.value).sum

section
variable (config : LoanTermConfig) (events : List EventRow)

def approvedRate : Int :=
  orDefault ((approvalEvent events).bind (·.interestRateBps)) config.defaultInterestRateBps

def approvedTerm : Int :=
  orDefault ((approvalEvent events).bind (·.termLedgers)) config.defaultTermLedgers

/-- The payments cover the request and the interest on all of it from the approval to the cursor. -/
def Covered (mode : RoundingMode) (cursor : Nat) : Prop :=
  ∃ interest, IsRounding mode (((requested events * approvedRate config events *
      (cursor - approvedLedger events : Nat) : Int) : ℚ) / (10000 * approvedTerm config events : Int))
    interest ∧ requested events + interest ≤ repaid events

end

/-- By status: a default was published, or it was not and the payments do or do not cover. -/
def Agrees (marked covered : Prop) : LoanStatus → Prop
  | .Defaulted | .Liquidated => marked
  | .Repaid => ¬ marked ∧ covered
  | _ => ¬ marked ∧ ¬ covered

/-- A default is always displayed and a liquidation never is; of the other loans, the payments
cover exactly those that are repaid. -/
def Agreed (covered : Prop) : LoanStatus → Prop
  | .Defaulted => True
  | .Liquidated => False
  | .Repaid => covered
  | _ => ¬ covered

lemma agrees_iff {marked covered : Prop} {status} (h : marked ↔ status = .Defaulted) :
    Agrees marked covered status ↔ Agreed covered status := by
  cases status <;> simp [Agrees,Agreed,h]

section
variable {config : LoanTermConfig} {mode : RoundingMode} {events : List EventRow} {cursor : Nat}

lemma toList_toString (n) : (toString n).toList = bigIntToString n := by
  cases n with
  | ofNat n =>
    rw [Int.ofNat_eq_natCast,bigIntToString,if_neg (Int.not_lt.mpr (Int.natCast_nonneg n))]
    exact Nat.toList_repr
  | negSucc n =>
    rw [bigIntToString,if_pos (Int.negSucc_lt_zero n)]
    show ("-" ++ Nat.repr (n + 1)).toList = '-' :: digits (n + 1)
    rw [String.toList_append,Nat.toList_repr]
    rfl

lemma toWholeStroops_toString (mode n) : toWholeStroops mode (some (toString n)) = .ok n := by
  have ht : (toString n).toList = (ofScaled (decide (n < 0)) n.natAbs 0).text := by
    rw [toList_toString,text_ofScaled,if_pos rfl,bigIntToString,Nat.pow_zero,Nat.div_one]
    by_cases hn : n < 0 <;> simp [hn]
  have hm : (ofScaled (decide (n < 0)) n.natAbs 0).magnitude * stroopScale =
      ((n.natAbs * 10000000 : Int) : ℚ) := by
    rw [ofScaled_magnitude]
    norm_num [stroopScale]
  have hs : Decimal.toStroops (toString n) mode = .ok (n * stroopScale) := by
    rw [toStroops_eq_readDecimal (by rw [ht,trim_text]),readDecimal_exact _ hm]
    refine congrArg Except.ok ?_
    simp only [signed,ofScaled,decide_eq_true_eq,stroopScale]
    split <;> omega
  have hne : toString n ≠ "" := fun h =>
    bigIntToString_ne_nil n ((toList_toString n).symm.trans (congrArg String.toList h))
  obtain ⟨_,hq,hr⟩ := Decimal.roundDiv_spec (n * stroopScale) (by decide : stroopScale ≠ 0) mode
  have he : ((n * stroopScale : Int) : ℚ) / stroopScale = n := by norm_num [stroopScale]
  rw [he] at hr
  rw [toWholeStroops,filter_some,decide_eq_true hne,if_pos rfl]
  simp only [hs]
  rw [hr.unique (isRounding_self mode n)] at hq
  exact hq

lemma amount_of_row {ev row} (h : rowOf ev = some row) :
    row.amount = none ∨ ∃ n : Int, row.amount = some (toString n) := by
  obtain ⟨_,ev⟩ := ev
  cases ev <;> cases h <;> first | exact .inl rfl | exact .inr ⟨_,rfl⟩

lemma toWholeStroops_amount (mode) {ev row}
    (h : rowOf ev = some row) : toWholeStroops mode row.amount = .ok row.value := by
  rcases amount_of_row h with hnn | ⟨n,hn⟩
  · rw [EventRow.value,hnn]
    rfl
  rw [EventRow.value,hn,toWholeStroops_toString,bind_some,toList_toString,
    stringToBigInt_bigIntToString]
  rfl

lemma repaid_foldlM {rows : List EventRow}
    (hs : ∀ row ∈ rows, toWholeStroops mode row.amount = .ok row.value) (sum) :
    rows.foldlM (fun sum ev => do return sum + (← toWholeStroops mode ev.amount)) sum =
      .ok (sum + (rows.map EventRow.value).sum) := by
  induction rows generalizing sum with
  | nil => rw [map_nil,sum_nil,Int.add_zero]; rfl
  | cons row rows ih =>
    rw [foldlM_cons,hs row mem_cons_self]
    refine (ih (fun r hr => hs r (mem_cons_of_mem _ hr)) _).trans ?_
    rw [map_cons,sum_cons,Int.add_assoc]

lemma totalOwed_eq (hs : ∀ row ∈ events, toWholeStroops mode row.amount = .ok row.value)
    (hc : isPending events cursor = false) :
    totalOwed config mode events cursor = (do
      let interest ← Decimal.roundDiv (requested events * approvedRate config events *
        (cursor - approvedLedger events : Nat)) (10000 * approvedTerm config events) mode
      return requested events + interest - repaid events) := by
  have hpr : toWholeStroops mode
      ((events.find? (·.eventType = .LoanRequested)).bind (·.amount)) = .ok (requested events) := by
    rw [requested]
    cases hf : events.find? (·.eventType = .LoanRequested) with
    | none => rfl
    | some row => exact hs row (mem_of_find?_eq_some hf)
  have hp : (events.filter (·.eventType = .LoanRepaid)).foldlM
      (fun sum ev => do return sum + (← toWholeStroops mode ev.amount)) 0 =
        .ok (0 + repaid events) :=
    repaid_foldlM (fun row hr => hs row (mem_of_mem_filter hr)) 0
  rw [Int.zero_add] at hp
  rw [totalOwed,hpr,hp,hc]
  rfl

lemma owed_iff {marked : Prop} {status}
    (hs : ∀ row ∈ events, toWholeStroops mode row.amount = .ok row.value)
    (hc : isPending events cursor = false) :
    (∃ owed, totalOwed config mode events cursor = .ok owed ∧ Agrees marked (owed ≤ 0) status) ↔
    approvedTerm config events ≠ 0 ∧ Agrees marked (Covered config events mode cursor) status := by
  rw [totalOwed_eq hs hc]
  by_cases ht : approvedTerm config events = 0
  · rw [ht]
    refine ⟨fun h => ?_,fun h => absurd rfl h.1⟩
    obtain ⟨owed,ho,-⟩ := h
    cases ho
  obtain ⟨q,hq,hr⟩ := Decimal.roundDiv_spec (requested events * approvedRate config events *
    (cursor - approvedLedger events : Nat)) (mul_ne_zero (by decide : (10000 : Int) ≠ 0) ht) mode
  have hv : Covered config events mode cursor ↔ requested events + q - repaid events ≤ 0 := by
    rw [sub_nonpos]
    refine ⟨fun h => ?_,fun h => ⟨q,hr,h⟩⟩
    obtain ⟨_,hn,h⟩ := h
    rwa [hn.unique hr] at h
  rw [hq,hv]
  refine ⟨fun h => ?_,fun h => ⟨_,rfl,h.2⟩⟩
  obtain ⟨owed,ho,h⟩ := h
  cases ho
  exact ⟨ht,h⟩

lemma any_eventsOf {log : List (Nat × LoanEvent)} {id} :
    (eventsOf (log.filterMap rowOf) id).any (·.eventType = .LoanDefaulted) = true ↔
    ∃ ev ∈ log, subject ev.2 = some (.LoanDefaulted,id) := by
  simp only [eventsOf,List.any_eq_true,List.mem_insertionSort,List.mem_reverse,List.mem_filter,
    List.mem_filterMap,decide_eq_true_eq]
  constructor
  · rintro ⟨row,⟨⟨ev,he,hr⟩,hl⟩,ht⟩
    exact ⟨ev,he,ht ▸ (subject_of_row hr hl).1⟩
  · rintro ⟨ev,he,hs⟩
    obtain ⟨row,hr,-,ht,hl⟩ := exists_row hs
    exact ⟨row,⟨⟨ev,he,hr⟩,hl⟩,ht⟩

lemma follows_iff {rows id status} (hc : isPending (eventsOf rows id) cursor = false) :
    Follows (getLoanDetails config mode rows id cursor) status ↔
    ∃ owed, totalOwed config mode (eventsOf rows id) cursor = .ok owed ∧
    Agrees ((eventsOf rows id).any (·.eventType = .LoanDefaulted) = true) (owed ≤ 0) status := by
  have hn : eventsOf rows id ≠ [] := by
    intro hl
    rw [hl] at hc
    simp [isPending,approvedLedger,approvalEvent] at hc
  rw [getLoanDetails,if_neg hn,hc]
  generalize eventsOf rows id = events
  cases totalOwed config mode events cursor with
  | error =>
    refine ⟨fun h => ?_,fun h => ?_⟩
    · obtain ⟨_,hs,-⟩ := h
      cases hs
    · obtain ⟨owed,ho,-⟩ := h
      cases ho
  | ok owed =>
    have hh : Follows (.ok (some (if events.any (·.eventType = .LoanDefaulted) then .defaulted
        else if 0 < owed then .active else .repaid))) status ↔
        Agrees (events.any (·.eventType = .LoanDefaulted) = true) (owed ≤ 0) status := by
      by_cases hm : events.any (·.eventType = .LoanDefaulted) = true
      · cases status <;> simp [Follows,Agrees,hm]
      by_cases ho : 0 < owed
      · cases status <;> simp [Follows,Agrees,hm,ho]
      · cases status <;> simp [Follows,Agrees,hm,ho,not_lt.mp ho]
    refine hh.trans ⟨fun h => ⟨owed,rfl,h⟩,fun h => ?_⟩
    obtain ⟨_,he,h⟩ := h
    cases he
    exact h

end

/-- **Displayed status**: it follows the chain exactly if the loan was not liquidated and, unless it
defaulted, the payments cover the request with interest until the cursor exactly when the loan is
repaid. -/
theorem status_follows_iff {d : Deployment} {ScVal : Type} {c : Codec ScVal} (hc : c.Documented)
    (config : LoanTermConfig) (mode : RoundingMode) (g : Genesis d) (is : List (Invocation d))
    (id cursor : Nat)
    (hcursor : isPending (eventsOf (c.rows (g.after is).manager.events) id) cursor = false) :
    (∀ loan, (g.after is).manager.loans.lookup id = some loan →
      Follows (getLoanDetails config mode (c.rows (g.after is).manager.events) id cursor)
      loan.status) ↔ ∀ loan, (g.after is).manager.loans.lookup id = some loan →
      approvedTerm config (eventsOf (c.rows (g.after is).manager.events) id) ≠ 0 ∧
      Agreed (Covered config (eventsOf (c.rows (g.after is).manager.events) id) mode cursor)
      loan.status := by
  refine forall_congr' fun loan => imp_congr_right fun hl => ?_
  rw [rows_eq hc] at hcursor ⊢
  rw [follows_iff hcursor,owed_iff (fun row hr => ?_) hcursor]
  · rw [agrees_iff (any_eventsOf.trans (exists_default_iff (g.logged is) hl))]
  · rw [eventsOf,mem_insertionSort,mem_reverse,mem_filter] at hr
    obtain ⟨event,-,he⟩ := mem_filterMap.mp hr.1
    exact toWholeStroops_amount mode he

/-- A loan in the ledger of its approval. -/
theorem status_follows_iff_lent : Follows (getLoanDetails ⟨17280,1200⟩ .HalfEven
    (Codec.plain.rows (Genesis.small.after Genesis.lent).manager.events) 1 1)
    Loan.small.status := by
  refine (status_follows_iff Codec.plain_documented ⟨17280,1200⟩ .HalfEven Genesis.small Genesis.lent
    1 1 (by decide +kernel)).mpr (fun loan hl => ?_) Loan.small Genesis.lookup_lent
  cases Option.some.inj (Genesis.lookup_lent.symm.trans hl)
  refine ⟨by decide +kernel,fun hc => ?_⟩
  obtain ⟨_,hr,hle⟩ := hc
  generalize hevents : eventsOf _ 1 = events at hr hle
  have hn : 1 - approvedLedger events = 0 := by
    rw [← hevents]
    decide +kernel
  have hs : repaid events < requested events := by
    rw [← hevents]
    decide +kernel
  rw [hn,Nat.cast_zero,mul_zero,Int.cast_zero,zero_div] at hr
  have ho := hr.nonneg le_rfl
  omega

def repaidAtOnce : List (Invocation Deployment.small) :=
  Genesis.lent ++ [.small 1 (.loan (.repay ⟨6⟩ 1 5000)) fun _ h => by cases h]

/-- **A repaid loan**: it is displayed as repaid at first, and as active one term later. -/
theorem repaid_shown_active :
    (∃ loan, (Genesis.small.after repaidAtOnce).manager.loans.lookup 1 = some loan ∧
    loan.status = .Repaid) ∧ getLoanDetails ⟨17280,1200⟩ .HalfEven
    (Codec.plain.rows (Genesis.small.after repaidAtOnce).manager.events) 1 1 =
    .ok (some .repaid) ∧ getLoanDetails ⟨17280,1200⟩ .HalfEven
    (Codec.plain.rows (Genesis.small.after repaidAtOnce).manager.events) 1 17281 =
    .ok (some .active) := by
  have hs : ((Genesis.small.after repaidAtOnce).manager.loans.lookup 1).map Loan.status =
      some .Repaid := by decide +kernel
  exact ⟨map_eq_some_iff.mp hs,by decide +kernel,by decide +kernel⟩

end DukaPay.Backend.LoanRows
