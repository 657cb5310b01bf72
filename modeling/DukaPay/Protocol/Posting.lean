import DukaPay.Protocol.Flow

/-! Every operation of the loan manager on one loan is a posting: it replaces one record, moves
tokens, and lets the pool book a yield and a loss. -/
namespace DukaPay
open Contractlib

inductive LoanStatus.Next : LoanStatus → LoanStatus → Prop
  | approve : Next .Pending .Approved
  | cancel : Next .Pending .Cancelled
  | reject : Next .Pending .Rejected
  | repay : Next .Approved .Repaid
  | default : Next .Approved .Defaulted
  | liquidate : Next .Approved .Liquidated

def LoanStatus.Terminal (status : LoanStatus) : Prop := status ≠ .Pending ∧ status ≠ .Approved

instance (status : LoanStatus) : Decidable status.Terminal :=
  inferInstanceAs (Decidable (_ ∧ _))

lemma LoanStatus.Terminal.not_next {st status' : LoanStatus} (h : st.Terminal) :
    ¬ Next st status' := by
  intro hn
  cases hn with
  | repay | default | liquidate => exact h.2 rfl
  | _ => exact h.1 rfl

namespace Loan

def receivable (loan : Loan) : Int := if loan.status = .Approved then loan.remaining else 0

def owed (loan : Loan) : Int := if loan.status = .Approved then loan.amount else 0

structure Sound (d : Deployment) (loan : Loan) : Prop extends InRange loan where
  borrower_pool : loan.borrower ≠ d.pool
  borrower_manager : loan.borrower ≠ d.manager
  unpaid : loan.status = .Pending → loan.principalPaid = 0
  debt_pos : loan.status = .Approved → 0 < loan.debt
  paid_off : loan.status = .Repaid →
    loan.principalPaid = loan.amount ∧ loan.accruedInterest = 0 ∧ loan.accruedLateFee = 0
  released : loan.status.Terminal → loan.collateralAmount = 0

lemma Sound.owed_nonneg {d} {loan : Loan} (h : loan.Sound d) : 0 ≤ loan.owed := by
  unfold owed
  split
  · exact h.amount_pos.le
  · exact le_refl 0

lemma Sound.receivable_nonneg {d} {loan : Loan} (h : loan.Sound d) : 0 ≤ loan.receivable := by
  unfold receivable
  split
  · exact h.remaining_nonneg
  · exact le_refl 0

/-- What an operation may do to the record under `id`, with the loan counter before and after. -/
inductive Moves (id counter counter' : Nat) : Option Loan → Option Loan → Prop
  | request (new : Loan) (hstatus : new.status = .Pending) (hid : id = counter + 1)
      (hcounter : counter' = counter + 1) : Moves id counter counter' none (some new)
  | change (old new : Loan)
      (hstatus : new.status = old.status ∨ LoanStatus.Next old.status new.status)
      (hcounter : counter' = counter) : Moves id counter counter' (some old) (some new)
  | purge (old : Loan) (hstatus : LoanManager.Purgable old.status) (hcounter : counter' = counter) :
      Moves id counter counter' (some old) none

/-- What the log tells of a change of the record under `id`. -/
def announcement (id : Nat) : Option Loan → Option Loan → List (LoanStatus × Nat)
  | some old,some new =>
    if new.status ≠ old.status ∧ (new.status = .Approved ∨ new.status = .Defaulted) then
      [(new.status,id)]
    else []
  | _,_ => []

end Loan

def LoanManager.Fits (m : LoanManager) : Prop := ∀ token, i128.Fits (m.totalOutstanding token)

structure World.Sound (d : Deployment) (w : World) : Prop where
  token : w.manager.token = some d.token
  lendingPool : w.manager.lendingPool = some d.pool
  admin : w.manager.admin ≠ none
  loanManager : w.pool.loanManager = some d.manager
  managed_fits : w.pool.toBooks.Fits
  outstanding_fits : w.manager.Fits
  loan : ∀ id loan, w.manager.loans.lookup id = some loan → loan.Sound d
  id_le : ∀ id loan, w.manager.loans.lookup id = some loan → id ≤ w.manager.loanCounter

/-- The account `q` holds, in the lent token, the sum of `f` over all records, and nothing in any
other token. -/
def Tallies (d : Deployment) (f : Loan → Int) (q : Address → Int) (loans : Storage Nat Loan) :
    Prop :=
  ∀ t, q t = if t = d.token then loans.sumBy fun _ loan => f loan else 0

def contribution (f : Loan → Int) (o : Option Loan) : Int := o.elim 0 f

@[simp] lemma contribution_none (f) : contribution f none = 0 := rfl

@[simp] lemma contribution_some (f loan) : contribution f (some loan) = f loan := rfl

lemma Tallies.write {d f q q' id new loans loans'} (h : Tallies d f q loans)
    (hw : Storage.Writes id new loans loans') (hq : ∀ t, q' t = q t +
    if t = d.token then contribution f new - contribution f (loans.lookup id) else 0) :
    Tallies d f q' loans' := by
  intro t
  have hm := hw.sumBy_eq fun _ loan => f loan
  have ho : Storage.part (fun _ loan => f loan) id (loans.lookup id) =
      contribution f (loans.lookup id) := rfl
  have hn : Storage.part (fun _ loan => f loan) id new = contribution f new := rfl
  rw [hq,h t]
  split
  · omega
  · simp

structure World.Balanced (d : Deployment) (w : World) : Prop where
  netLent : Tallies d Loan.receivable (w.netLent d) w.manager.loans
  outstanding : Tallies d Loan.owed w.manager.totalOutstanding w.manager.loans
  custody : Tallies d Loan.collateralAmount (w.custody d) w.manager.loans

structure Amounts where
  gain : Int
  loss : Int
  inflow : Int
  outflow : Int

structure Posting (d : Deployment) (id : Nat) (new : Option Loan) (x : Amounts) (w w' : World) :
    Prop where
  loans : Storage.Writes id new w.manager.loans w'.manager.loans
  moves : Loan.Moves id w.manager.loanCounter w'.manager.loanCounter
    (w.manager.loans.lookup id) new
  sound : ∀ loan, new = some loan → loan.Sound d
  settings : w'.manager.toSettings = w.manager.toSettings
  fits : w.manager.Fits → w'.manager.Fits
  outstanding : ∀ t, w'.manager.totalOutstanding t = w.manager.totalOutstanding t +
    if t = d.token then
      contribution Loan.owed new - contribution Loan.owed (w.manager.loans.lookup id) else 0
  flow : Flow d d.token x.inflow x.outflow
    (contribution Loan.collateralAmount new -
      contribution Loan.collateralAmount (w.manager.loans.lookup id)) w.bank w'.bank
  settled : Settled d.token x.gain x.loss w.pool w'.pool
  booked : x.gain - x.loss = x.inflow - x.outflow + (contribution Loan.receivable new -
      contribution Loan.receivable (w.manager.loans.lookup id))
  announced : w'.manager.announced =
    Loan.announcement id (w.manager.loans.lookup id) new ++ w.manager.announced

namespace Posting
variable {d : Deployment} {id : Nat} {new : Option Loan} {x : Amounts} {w w' : World}

lemma counter_le (h : Posting d id new x w w') :
    w.manager.loanCounter ≤ w'.manager.loanCounter := by
  have hm := h.moves
  generalize w.manager.loans.lookup id = old at hm
  cases hm with
  | request => omega
  | change => omega
  | purge => omega

lemma id_le (hw : w.Sound d) (h : Posting d id new x w w') : id ≤ w'.manager.loanCounter := by
  have hm := h.moves
  cases ho : w.manager.loans.lookup id with
  | none =>
    rw [ho] at hm
    cases hm with
    | request => omega
  | some loan => exact le_trans (hw.id_le id loan ho) h.counter_le

lemma world_sound (hw : w.Sound d) (h : Posting d id new x w w') : w'.Sound d where
  token := by rw [h.settings,hw.token]
  lendingPool := by rw [h.settings,hw.lendingPool]
  admin := by
    rw [h.settings]
    exact hw.admin
  loanManager := by rw [h.settled.loanManager,hw.loanManager]
  managed_fits := h.settled.fits hw.managed_fits
  outstanding_fits := h.fits hw.outstanding_fits
  loan := by
    intro j loan hj
    rw [h.loans j] at hj
    split at hj
    · exact h.sound loan hj
    · exact hw.loan j loan hj
  id_le := by
    intro j loan hj
    rw [h.loans j] at hj
    split at hj
    · next he =>
      rw [he]
      exact h.id_le hw
    · exact le_trans (hw.id_le j loan hj) h.counter_le

lemma balanced (hb : w.Balanced d) (h : Posting d id new x w w') : w'.Balanced d where
  netLent := by
    refine hb.netLent.write h.loans fun t => ?_
    have hk := h.booked
    unfold World.netLent
    rw [World.cash_of_flow h.flow,h.settled.managed]
    split <;> omega
  outstanding := hb.outstanding.write h.loans h.outstanding
  custody := hb.custody.write h.loans fun t => World.custody_of_flow h.flow t

end Posting

inductive Postings (d : Deployment) (ids : Finset Nat) : World → World → Prop
  | nil (w : World) : Postings d ids w w
  | cons {id : Nat} {new : Option Loan} {x : Amounts} {w w' w'' : World} (hid : id ∈ ids)
      (h : Posting d id new x w w') (hs : Postings d ids w' w'') : Postings d ids w w''

namespace Postings
variable {d : Deployment} {ids : Finset Nat} {w w' w'' : World}

lemma induction {I : World → Prop} (h : Postings d ids w w')
    (ht : ∀ id new x u u', I u → Posting d id new x u u' → I u') (hw : I w) : I w' := by
  induction h with
  | nil => exact hw
  | cons _ h _ ih => exact ih (ht _ _ _ _ _ hw h)

lemma snoc {id new x} (hs : Postings d ids w w')
    (hi : id ∈ ids) (h : Posting d id new x w' w'') : Postings d ids w w'' := by
  induction hs with
  | nil => exact .cons hi h (.nil _)
  | cons hi' h' _ ih => exact .cons hi' h' (ih h)

lemma lookup_eq {j} (h : Postings d ids w w') (hj : j ∉ ids) :
    w'.manager.loans.lookup j = w.manager.loans.lookup j := by
  induction h with
  | nil => rfl
  | cons hi h _ ih =>
    rw [ih,h.loans.lookup_ne]
    rintro rfl
    exact hj hi

end Postings

end DukaPay
