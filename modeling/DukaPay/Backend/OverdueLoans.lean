import DukaPay.Backend.LoanRows
import DukaPay.Protocol.Log

/-! The default checker looks for overdue loans among the indexed events. It takes any repayment for
the end of a loan, and one term for the terms of all loans. -/
namespace DukaPay.Backend.LoanRows
open Contractlib List

def EventRow.loan (row : EventRow) : Option Int :=
  match row.loanId with
  | some (.integer n) => some n
  | _ => none

variable (rows : List EventRow)

def dueLedger (termLedgers : Nat) (loan : Int) : Nat :=
  let approved := rows.filter fun row => row.eventType = .LoanApproved ∧ row.loan = some loan
  (approved.map EventRow.ledger).foldl max 0 + termLedgers

/-- The loans that qualify. -/
def overdue (termLedgers currentLedger : Nat) : List Int :=
  let approved := ((rows.filter (·.eventType = .LoanApproved)).filterMap EventRow.loan).dedup
  approved.filter fun loan =>
    (∀ row ∈ rows, row.loan = some loan → row.eventType ∉ [.LoanRepaid,.LoanDefaulted]) ∧
    dueLedger rows termLedgers loan < currentLedger

def fetchOverdueLoanIds (termLedgers maxLoansPerRun currentLedger : Nat) : List Int :=
  let due := dueLedger rows termLedgers
  let ordered := (overdue rows termLedgers currentLedger).insertionSort fun a b =>
    due a < due b ∨ due a = due b ∧ a ≤ b
  (ordered.take maxLoansPerRun).filter (0 < ·)

/-- The type of an event that the queries select, and its loan. -/
def subject : LoanEvent → Option (EventType × Nat)
  | .LoanRequested loanId _ _ => some (.LoanRequested,loanId)
  | .LoanApproved loanId _ _ _ => some (.LoanApproved,loanId)
  | .LoanRepaid _ loanId _ => some (.LoanRepaid,loanId)
  | .LoanDefaulted loanId _ => some (.LoanDefaulted,loanId)
  | _ => none

/-- The loan was approved, always more than a term ago, and neither repaid, not even in part, nor
defaulted. -/
structure Findable (log : List (Nat × LoanEvent)) (termLedgers currentLedger id : Nat) : Prop where
  approved : ∃ event ∈ log, subject event.2 = some (.LoanApproved, id)
  due : ∀ event ∈ log, subject event.2 = some (.LoanApproved, id) →
    event.1 + termLedgers < currentLedger
  running : ∀ event ∈ log, ∀ type ∈ [EventType.LoanRepaid,.LoanDefaulted],
    subject event.2 ≠ some (type, id)

/-- Each approval of the loan was more than a term ago, and nothing of it was repaid. -/
structure Untouched (log : List (Nat × LoanEvent)) (termLedgers currentLedger id : Nat) :
    Prop where
  due : ∀ event ∈ log, subject event.2 = some (.LoanApproved, id) →
    event.1 + termLedgers < currentLedger
  unpaid : ∀ event ∈ log, subject event.2 ≠ some (.LoanRepaid, id)

/-! ### What the rows tell of the records -/

section
variable {w : DukaPay.World} {id : Nat} {loan : Loan} {term now : Nat}

lemma announced_approved (e : LoanEvent) :
    e.announced = some (.Approved,id) ↔ subject e = some (.LoanApproved,id) := by
  cases e <;> simp [LoanEvent.announced,subject]

lemma announced_defaulted (e : LoanEvent) :
    e.announced = some (.Defaulted,id) ↔ subject e = some (.LoanDefaulted,id) := by
  cases e <;> simp [LoanEvent.announced,subject]

lemma exists_approval (hw : w.Logged) (hl : w.manager.loans.lookup id = some loan)
    (ha : loan.status = .Approved) :
    ∃ event ∈ w.manager.events, subject event.2 = some (.LoanApproved,id) := by
  obtain ⟨event,he,hs⟩ := mem_filterMap.mp (hw.approved id loan hl ha)
  exact ⟨event,he,(announced_approved event.2).mp hs⟩

lemma exists_default_iff (hw : w.Logged) (hl : w.manager.loans.lookup id = some loan) :
    (∃ event ∈ w.manager.events, subject event.2 = some (.LoanDefaulted,id)) ↔
    loan.status = .Defaulted := by
  rw [← hw.defaulted id loan hl,LoanManager.announced,mem_filterMap]
  simp only [announced_defaulted]

/-- An approved loan has an approval and no default in the log. -/
lemma findable_iff (hw : w.Logged) (hl : w.manager.loans.lookup id = some loan)
    (ha : loan.status = .Approved) :
    Findable w.manager.events term now id ↔ Untouched w.manager.events term now id := by
  refine ⟨fun h => ⟨h.due,fun event he => h.running event he _ mem_cons_self⟩,fun h =>
    ⟨exists_approval hw hl ha,h.due,fun event he type ht hs => ?_⟩⟩
  rcases mem_pair.mp ht with rfl | rfl
  · exact h.unpaid event he hs
  · cases ((exists_default_iff hw hl).mp ⟨event,he,hs⟩).symm.trans ha

end

lemma foldl_max_add_lt {lgs : List Nat} {first term n} : lgs.foldl max first + term < n ↔
    first + term < n ∧ ∀ lg ∈ lgs, lg + term < n := by
  induction lgs generalizing first with
  | nil => simp
  | cons lg lgs ih =>
    have hm : max first lg + term < n ↔ first + term < n ∧ lg + term < n := by omega
    rw [foldl_cons,ih,forall_mem_cons,hm,and_assoc]

section
variable {event : Nat × LoanEvent} {id : Nat}

lemma subject_of_row {row} (h : rowOf event = some row) (hl : row.loan = some (id : Int)) :
    subject event.2 = some (row.eventType,id) ∧ row.ledger = event.1 := by
  obtain ⟨_,event⟩ := event
  cases event <;> cases h <;> simp_all [subject,EventRow.loan]

lemma exists_row {type} (h : subject event.2 = some (type,id)) : ∃ row, rowOf event = some row ∧
    row.ledger = event.1 ∧ row.eventType = type ∧ row.loan = some (id : Int) := by
  obtain ⟨_,event⟩ := event
  cases event <;> cases h <;> exact ⟨_,rfl,rfl,rfl,rfl⟩

end

lemma mem_overdue {log : List (Nat × LoanEvent)} {term now id : Nat} :
    (id : Int) ∈ overdue (log.filterMap rowOf) term now ↔
    Findable log term now id := by
  rw [overdue,mem_filter,decide_eq_true_iff,dueLedger,foldl_max_add_lt,forall_mem_map]
  simp only [mem_filter,mem_dedup,mem_filterMap,decide_eq_true_eq]
  constructor
  · rintro ⟨⟨row,⟨⟨event,hv,hw⟩,ht⟩,hl⟩,ho,hz,hd⟩
    refine ⟨⟨event,hv,ht ▸ (subject_of_row hw hl).1⟩,fun e he hs => ?_,fun e he type ht hs => ?_⟩
    · obtain ⟨r,hr,hld,hm⟩ := exists_row hs
      rw [← hld]
      exact hd r ⟨⟨e,he,hr⟩,hm⟩
    · obtain ⟨r,hr,-,rfl,hm⟩ := exists_row hs
      exact ho r ⟨e,he,hr⟩ hm ht
  · rintro ⟨⟨event,hv,ha⟩,hd,hn⟩
    obtain ⟨row,hw,-,ht,hl⟩ := exists_row ha
    refine ⟨⟨row,⟨⟨event,hv,hw⟩,ht⟩,hl⟩,?_,?_,?_⟩
    · rintro r ⟨e,he,hr⟩ hm ht
      exact hn e he _ ht (subject_of_row hr hm).1
    · have hf := hd event hv ha
      omega
    · rintro r ⟨⟨e,he,hr⟩,ht,hm⟩
      obtain ⟨hs,hld⟩ := subject_of_row hr hm
      rw [hld]
      exact hd e he (ht ▸ hs)

lemma approved_of_checkDefault {d : Deployment} {env : Env} {w w' : DukaPay.World} {id : Nat}
    (h : LoanManager.checkDefault d env id w = .ok w') :
    ∃ loan, w.manager.loans.lookup id = some loan ∧ loan.status = .Approved := by
  simp only [LoanManager.checkDefault,bind_eq_ok,ensure_eq_ok,Unique.exists_iff,
    LoanManager.readLoan_eq_ok] at h
  obtain ⟨_,-,-,-,loan,hl,ha,-⟩ := h
  exact ⟨loan,hl,ha⟩

/-- **Overdue loans** are all found exactly if each of them was approved more than the term of the
checker ago and nothing of it was repaid. -/
theorem overdue_found_iff {d : Deployment} {ScVal : Type} {c : Codec ScVal} (hc : c.Documented)
    (g : Genesis d) (is : List (Invocation d)) (env : Env) (termLedgers maxLoansPerRun : Nat)
    (hlimit : (overdue (c.rows (g.after is).manager.events) termLedgers env.sequence).length ≤
      maxLoansPerRun) : (∀ id w', LoanManager.checkDefault d env id (g.after is) = .ok w' →
      (id : Int) ∈ fetchOverdueLoanIds (c.rows (g.after is).manager.events) termLedgers
      maxLoansPerRun env.sequence) ↔
    ∀ id w', LoanManager.checkDefault d env id (g.after is) = .ok w' →
      Untouched (g.after is).manager.events termLedgers env.sequence id := by
  rw [rows_eq hc] at hlimit ⊢
  refine forall_congr' fun id => forall_congr' fun w' => imp_congr_right fun h => ?_
  obtain ⟨loan,hl,ha⟩ := approved_of_checkDefault h
  have hw := g.logged is
  have hp := hw.id_pos id loan hl
  have hs : ∀ order : Int → Int → Prop, ∀ [DecidableRel order],
      ((overdue ((g.after is).manager.events.filterMap rowOf) termLedgers env.sequence).insertionSort
        order).length ≤ maxLoansPerRun := by
    intro order _
    rwa [length_insertionSort]
  rw [fetchOverdueLoanIds,mem_filter,take_of_length_le (hs _),
    mem_insertionSort,mem_overdue,decide_eq_true_eq,findable_iff hw hl ha]
  exact and_iff_left (by omega)

/-- A loan of which nothing was paid is found. -/
theorem overdue_found_iff_lent :
    (overdue (Codec.plain.rows (Genesis.small.after Genesis.lent).manager.events) 17280
    172800).length ≤ 10 ∧ ∀ id w', LoanManager.checkDefault Deployment.small (.small 172800) id
    (Genesis.small.after Genesis.lent) = .ok w' → (id : Int) ∈ fetchOverdueLoanIds
    (Codec.plain.rows (Genesis.small.after Genesis.lent).manager.events) 17280 10 172800 := by
  refine ⟨by decide +kernel,(overdue_found_iff Codec.plain_documented Genesis.small Genesis.lent
    (.small 172800) 17280 10 (by decide +kernel)).mpr fun id w' h => ?_⟩
  obtain ⟨loan,hl,ha⟩ := approved_of_checkDefault h
  have hw := Genesis.small.logged Genesis.lent
  have hp := hw.id_pos id loan hl
  have hid := (Genesis.small.inOrder Genesis.lent).sound.id_le id loan hl
  have hc : (Genesis.small.after Genesis.lent).manager.loanCounter = 1 := by decide +kernel
  obtain rfl : id = 1 := by omega
  exact (findable_iff hw hl ha).mp (mem_overdue.mp (by decide +kernel))

def partlyRepaid : List (Invocation Deployment.small) :=
  Genesis.lent ++ [.small 2 (.loan (.repay ⟨6⟩ 1 1000)) fun _ h => by cases h]

/-- **A partial payment**: the loan can be marked as defaulted, and the checker does not find it. -/
theorem partly_repaid_missed : ∃ w', LoanManager.checkDefault Deployment.small (.small 172800) 1
    (Genesis.small.after partlyRepaid) = .ok w' ∧
    fetchOverdueLoanIds (Codec.plain.rows (Genesis.small.after partlyRepaid).manager.events) 17280
    10 172800 = [] := by
  have hok : (LoanManager.checkDefault Deployment.small (.small 172800) 1
      (Genesis.small.after partlyRepaid)).isOk = true := by decide +kernel
  cases hd : LoanManager.checkDefault Deployment.small (.small 172800) 1
      (Genesis.small.after partlyRepaid) with
  | error =>
    rw [hd] at hok
    cases hok
  | ok w' => exact ⟨w',rfl,by decide +kernel⟩

end DukaPay.Backend.LoanRows
