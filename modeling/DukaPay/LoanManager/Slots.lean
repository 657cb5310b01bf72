import DukaPay.Contractlib.Quota
import DukaPay.LoanManager.Settings

/-! The manager counts the loans of every borrower against a cap. -/
namespace DukaPay
open Contractlib Option

def LoanStatus.holdsSlot : LoanStatus → Bool
  | .Pending | .Approved | .Cancelled | .Rejected => true
  | .Repaid | .Defaulted | .Liquidated => false

def Loan.slot (loan : Loan) : Address × LoanStatus := (loan.borrower,loan.status)

namespace LoanManager

def slots (m : LoanManager) : Storage Nat (Address × LoanStatus) :=
  Storage.mapValues Loan.slot m.loans

lemma lookup_slots (m : LoanManager) (id) : m.slots.lookup id = (m.loans.lookup id).map Loan.slot :=
  Storage.lookup_mapValues Loan.slot m.loans id

structure SameSlots (m m' : LoanManager) : Prop where
  slots : ∀ id, m'.slots.lookup id = m.slots.lookup id
  counts : m'.borrowerLoanCount = m.borrowerLoanCount
  loanCounter : m'.loanCounter = m.loanCounter
  settings : m'.toSettings = m.toSettings

abbrev held (borrower : Address) (entry : Option (Address × LoanStatus)) : Nat :=
  Quota.held LoanStatus.holdsSlot borrower entry

/-- The record under `id` became `new`, and every count moved by the slots it held and holds. -/
structure SlotStep (id : Nat) (new : Option (Address × LoanStatus)) (m m' : LoanManager) :
    Prop where
  slots : Storage.Writes id new m.slots m'.slots
  counts : ∀ b, m'.borrowerLoanCount b =
    m.borrowerLoanCount b + held b new - held b (m.slots.lookup id)
  counter_le : m.loanCounter ≤ m'.loanCounter
  covered : m.slots.lookup id = none → id ≤ m'.loanCounter
  initialized : m.slots.lookup id = none → m.nftContract ≠ none
  settings : m'.toSettings = m.toSettings

variable {m m' m'' : LoanManager} {id : Nat} {new : Option (Address × LoanStatus)}

namespace SameSlots

lemma refl (m) : SameSlots m m := ⟨fun _ => rfl,rfl,rfl,rfl⟩

lemma trans (h : SameSlots m m') (h' : SameSlots m' m'') : SameSlots m m'' where
  slots := fun id => (h'.slots id).trans (h.slots id)
  counts := h'.counts.trans h.counts
  loanCounter := h'.loanCounter.trans h.loanCounter
  settings := h'.settings.trans h.settings

lemma of_manager_eq (h : m' = m) : SameSlots m m' := by
  rw [h]
  exact .refl m

lemma of_eq (hl : m'.loans = m.loans) (hc : m'.borrowerLoanCount = m.borrowerLoanCount)
    (ht : m'.loanCounter = m.loanCounter) (hs : m'.toSettings = m.toSettings) : SameSlots m m' := by
  refine ⟨fun id => ?_,hc,ht,hs⟩
  rw [LoanManager.slots,LoanManager.slots,hl]

lemma lookup (h : SameSlots m m') {old} (ho : m.loans.lookup id = some old) :
    m'.slots.lookup id = some old.slot := by
  rw [h.slots id,lookup_slots,ho,map_some]

lemma setLoan {old loan : Loan} (ho : m.loans.lookup id = some old)
    (h : loan.slot = old.slot) : SameSlots m (m.setLoan id loan) := by
  refine ⟨fun j => ?_,rfl,rfl,rfl⟩
  have hw := (Storage.writes_insert id loan m.loans).mapValues Loan.slot j
  refine hw.trans ?_
  split
  · next hj => rw [hj,lookup_slots,ho,map_some,map_some,h]
  · rfl

lemma adjustTotalOutstanding {t δ}
    (h : m.adjustTotalOutstanding t δ = .ok m') : SameSlots m m' := by
  unfold LoanManager.adjustTotalOutstanding at h
  split at h
  · cases h
    exact .refl m
  simp only [eq_ok] at h
  obtain ⟨_,-,-,rfl⟩ := h
  exact .of_eq rfl rfl rfl rfl

lemma closeOutstanding {t loan} (h : m.closeOutstanding t loan = .ok m') : SameSlots m m' := by
  simp only [LoanManager.closeOutstanding,bind_eq_ok] at h
  obtain ⟨_,-,h⟩ := h
  exact adjustTotalOutstanding h

lemma publish (env e) (h : SameSlots m m') : SameSlots m (m'.publish env e) :=
  h.trans (.of_eq rfl rfl rfl rfl)

lemma publishRepayment (env cmp b i x lateFeeDelta m) :
    SameSlots m (m.publishRepayment env cmp b i x lateFeeDelta) := by
  unfold LoanManager.publishRepayment
  split <;> split <;> exact .of_eq rfl rfl rfl rfl

end SameSlots

lemma decrement_counts {old : Loan} (hc : old.status.holdsSlot = true) (b) (m : LoanManager) :
    (m.decrementBorrowerLoanCount old.borrower).borrowerLoanCount b =
    m.borrowerLoanCount b + 0 - held b (some old.slot) := by
  unfold decrementBorrowerLoanCount
  by_cases hb : b = old.borrower
  · have hh : held b (some old.slot) = 1 := hb ▸ Quota.held_pos hc
    rw [hh,hb]
    exact Function.update_self ..
  have hh : held b (some old.slot) = 0 := Quota.held_of_ne (Ne.symm hb)
  rw [hh]
  exact Function.update_of_ne hb ..

namespace SlotStep

lemma after (hs : SameSlots m m') (h : SlotStep id new m' m'') : SlotStep id new m m'' where
  slots := by
    intro j
    rw [h.slots j,hs.slots j]
  counts := by
    intro b
    rw [h.counts b,hs.counts,hs.slots id]
  counter_le := hs.loanCounter ▸ h.counter_le
  covered := fun hn => h.covered ((hs.slots id).trans hn)
  initialized := by
    intro hn
    rw [← hs.settings]
    exact h.initialized ((hs.slots id).trans hn)
  settings := h.settings.trans hs.settings

lemma andThen (h : SlotStep id new m m') (hs : SameSlots m' m'') : SlotStep id new m m'' where
  slots := by
    intro j
    rw [hs.slots j,h.slots j]
  counts := by
    intro b
    rw [hs.counts,h.counts b]
  counter_le := hs.loanCounter.symm ▸ h.counter_le
  covered := fun hn => hs.loanCounter.symm ▸ h.covered hn
  initialized := h.initialized
  settings := hs.settings.trans h.settings

lemma of_stored {ent} (ho : m.slots.lookup id = some ent)
    (hs : Storage.Writes id new m.slots m'.slots)
    (hc : ∀ b, m'.borrowerLoanCount b = m.borrowerLoanCount b + held b new - held b ent)
    (ht : m'.loanCounter = m.loanCounter) (hst : m'.toSettings = m.toSettings) :
    SlotStep id new m m' where
  slots := hs
  counts := ho ▸ hc
  counter_le := ht.ge
  covered := fun hn => absurd (ho.symm.trans hn) (some_ne_none ent)
  initialized := fun hn => absurd (ho.symm.trans hn) (some_ne_none ent)
  settings := hst

lemma setLoan {old loan} (hf : SameSlots m m') (hl : SameSlots (m'.setLoan id loan) m'')
    (ho : m.loans.lookup id = some old) (hb : loan.borrower = old.borrower)
    (hs : loan.status.holdsSlot = old.status.holdsSlot) : SlotStep id (some loan.slot) m m'' := by
  refine .after hf (.andThen ?_ hl)
  refine .of_stored (hf.lookup ho)
    ((Storage.writes_insert id loan m'.loans).mapValues Loan.slot) (fun b => ?_) rfl rfl
  have hh : held b (some loan.slot) = held b (some old.slot) := by
    rw [Loan.slot,hb]
    exact Quota.held_congr hs
  rw [hh,Nat.add_sub_cancel]
  rfl

lemma close {old loan} (hf : SameSlots m m')
    (hl : SameSlots ((m'.setLoan id loan).decrementBorrowerLoanCount loan.borrower) m'')
    (ho : m.loans.lookup id = some old) (hb : loan.borrower = old.borrower)
    (hn : old.status.holdsSlot = true) (hc : loan.status.holdsSlot = false) :
    SlotStep id (some loan.slot) m m'' := by
  refine .after hf (.andThen ?_ hl)
  refine .of_stored (hf.lookup ho)
    ((Storage.writes_insert id loan m'.loans).mapValues Loan.slot) (fun b => ?_) rfl rfl
  have hw : held b (some loan.slot) = 0 := Quota.held_of_not hc
  rw [hw,hb]
  exact decrement_counts hn b m'

lemma purge {old} (hf : SameSlots m m')
    (hl : SameSlots (uncountClosed old { m' with loans := m'.loans.erase id }) m'')
    (ho : m.loans.lookup id = some old) (hp : Purgable old.status) : SlotStep id none m m'' := by
  have hw := (Storage.writes_erase id m'.loans).mapValues Loan.slot
  refine .after hf (.andThen ?_ hl)
  unfold uncountClosed
  split
  · next hc =>
    refine .of_stored (hf.lookup ho) hw (decrement_counts ?_ · m') rfl rfl
    rcases hc with hc | hc <;> rw [hc] <;> rfl
  · next hc =>
    refine .of_stored (hf.lookup ho) hw (fun b => ?_) rfl rfl
    have hr : old.status = .Repaid := hp.resolve_right hc
    have hh : held b (some old.slot) = 0 := Quota.held_of_not (by rw [hr]; rfl)
    rw [hh]
    rfl

end SlotStep

end LoanManager

end DukaPay
