import DukaPay.LoanManager.Slots
import DukaPay.Protocol.Steps

/-! In every state that the manager can reach, the count of a borrower is the number of stored loans
that hold a slot. -/
namespace DukaPay
open Contractlib LoanManager SameSlots
variable {d : Deployment} {env : Env} {w w' : World} {id : Nat}

/-! ### What keeps borrower and status of a record -/

namespace Loan
variable {loan loan' : Loan} {s : Settings}

lemma slot_of_accrueInterest (h : loan.accrueInterest env = .ok loan') :
    loan'.slot = loan.slot := by
  unfold accrueInterest at h
  split at h
  · cases h
    rfl
  split at h
  · cases h
    rfl
  simp only [bind_eq_ok] at h
  obtain ⟨_,-,h⟩ := h
  split at h
  · cases h
    rfl
  simp only [eq_ok] at h
  obtain ⟨_,-,_,-,_,-,_,-,_,-,_,-,rfl⟩ := h
  rfl

lemma slot_of_accrueLateFee {chg}
    (h : loan.accrueLateFee env s = .ok (loan',chg)) : loan'.slot = loan.slot := by
  unfold accrueLateFee at h
  split at h
  · cases h
    rfl
  split at h
  · cases h
    rfl
  simp only [bind_eq_ok] at h
  obtain ⟨_,-,h⟩ := h
  split at h
  · cases h
    rfl
  simp only [bind_eq_ok] at h
  obtain ⟨_,-,h⟩ := h
  split at h
  · cases h
    rfl
  simp only [bind_eq_ok] at h
  obtain ⟨_,-,_,-,_,-,h⟩ := h
  cases h
  rfl

lemma slot_of_currentTotalDebt {debt lateFeeDelta}
    (h : loan.currentTotalDebt env s = .ok (loan',debt,lateFeeDelta)) : loan'.slot = loan.slot := by
  simp only [currentTotalDebt,bind_eq_ok,Prod.exists] at h
  obtain ⟨_,hn,_,_,hf,_,-,h⟩ := h
  cases h
  exact (slot_of_accrueLateFee hf).trans (slot_of_accrueInterest hn)

lemma slot_of_applySplit {split} (h : loan.applySplit split = .ok loan') :
    loan'.slot = loan.slot := by
  rw [eq_of_applySplit h]
  rfl

lemma slot_of_applyDebtRecovery {amount} (h : loan.applyDebtRecovery amount = .ok loan') :
    loan'.slot = loan.slot := by
  unfold applyDebtRecovery at h
  split at h
  · cases h
    rfl
  simp only [bind_eq_ok] at h
  obtain ⟨split,-,h⟩ := h
  exact slot_of_applySplit h

lemma slot_forgiveDust (dust loan) : (forgiveDust dust loan).1.slot = loan.slot := by
  unfold forgiveDust
  split <;> rfl

lemma slot_of_settleAccrued (h : settleAccrued loan = .ok loan') : loan'.slot = loan.slot := by
  simp only [settleAccrued,eq_ok] at h
  obtain ⟨_,-,_,-,rfl⟩ := h
  rfl

lemma borrower_of_slot (h : loan'.slot = loan.slot) : loan'.borrower = loan.borrower :=
  congrArg Prod.fst h

lemma status_of_slot (h : loan'.slot = loan.slot) : loan'.status = loan.status :=
  congrArg Prod.snd h

end Loan

/-! ### What keeps the manager -/

namespace World
open LoanManager (SameSlots)
variable {pool token src dst recipient borrower : Address}
  {amount principal recovered collateral : Int}

lemma manager_of_transfer (h : w.transfer d env token src dst amount = .ok w') :
    w'.manager = w.manager := by
  obtain ⟨_,rfl,-⟩ := of_transfer h
  rfl

lemma manager_of_transferPositive (h : w.transferPositive d env token src dst amount = .ok w') :
    w'.manager = w.manager := by
  unfold transferPositive at h
  split at h
  · exact manager_of_transfer h
  · cases h
    rfl

lemma manager_of_recordLoanYield (h : w.recordLoanYield d env pool token amount = .ok w') :
    w'.manager = w.manager := by
  obtain ⟨_,rfl,-⟩ := of_recordLoanYield h
  rfl

lemma manager_of_recordPoolRecovery
    (h : w.recordPoolRecovery d env token principal recovered = .ok w') :
    w'.manager = w.manager := by
  obtain ⟨_,rfl,-⟩ := of_recordPoolRecovery h
  rfl

lemma manager_of_disburse (h : w.disburse d env pool recipient token amount = .ok w') :
    w'.manager = w.manager := by
  obtain ⟨_,rfl,-⟩ := of_disburse h
  rfl

lemma manager_of_recordForgiven {forgiven}
    (h : recordForgiven d env forgiven token principal recovered w = .ok w') :
    w'.manager = w.manager := by
  unfold recordForgiven at h
  split at h
  · exact manager_of_recordPoolRecovery h
  · cases h
    rfl

lemma manager_of_collectExtensionFee (h : collectExtensionFee d env borrower amount w = .ok w') :
    w'.manager = w.manager := by
  unfold collectExtensionFee at h
  split at h
  · simp only [bind_eq_ok] at h
    obtain ⟨_,-,_,-,_,hw1,h⟩ := h
    exact (manager_of_recordLoanYield h).trans (manager_of_transfer hw1)
  · cases h
    rfl

lemma keeps_of_movePrincipal {loan loan'}
    (h : movePrincipal d env pool token amount principal loan w = .ok (w',loan')) :
    w'.manager = w.manager ∧ loan'.slot = loan.slot := by
  unfold movePrincipal at h
  split at h
  · simp only [bind_eq_ok,pure_eq_ok,Prod.mk.injEq] at h
    obtain ⟨_,-,_,-,_,-,w1,hw1,rfl,rfl⟩ := h
    exact ⟨manager_of_disburse hw1,rfl⟩
  split at h
  · simp only [returnExcessCollateral,bind_eq_ok] at h
    obtain ⟨_,-,w1,hw1,_,-,_,-,h⟩ := h
    split at h
    · simp only [bind_eq_ok,pure_eq_ok,Prod.mk.injEq] at h
      obtain ⟨_,hw2,_,-,rfl,rfl⟩ := h
      exact ⟨(manager_of_transfer hw2).trans (manager_of_transfer hw1),rfl⟩
    · cases h
      exact ⟨manager_of_transfer hw1,rfl⟩
  · cases h
    exact ⟨rfl,rfl⟩

lemma sameSlots_of_releaseCollateralInternal
    (h : w.releaseCollateralInternal d env id recipient = .ok w') :
    SameSlots w.manager w'.manager := by
  simp only [releaseCollateralInternal,eq_ok] at h
  obtain ⟨_,hl,h⟩ := h
  split at h
  · cases h
    exact .refl _
  simp only [eq_ok] at h
  obtain ⟨_,-,w1,hw1,rfl⟩ := h
  have hs : SameSlots w.manager w1.manager := by
    rw [manager_of_transfer hw1]
    exact .setLoan hl rfl
  exact hs.trans (.of_eq rfl rfl rfl rfl)

lemma sameSlots_of_seizeCollateralInternal (h : w.seizeCollateralInternal d env id = .ok w') :
    SameSlots w.manager w'.manager := by
  simp only [seizeCollateralInternal,eq_ok] at h
  obtain ⟨_,hl,h⟩ := h
  split at h
  · cases h
    exact .refl _
  simp only [eq_ok] at h
  obtain ⟨_,-,_,-,w1,hw1,rfl⟩ := h
  have hs : SameSlots w.manager w1.manager := by
    rw [manager_of_transfer hw1]
    exact .setLoan hl rfl
  exact hs.trans (.of_eq rfl rfl rfl rfl)

lemma sameSlots_of_returnCollateral (h : returnCollateral d env id borrower collateral w = .ok w')
    : SameSlots w.manager w'.manager := by
  unfold returnCollateral at h
  split at h
  · simp only [eq_ok] at h
    obtain ⟨_,-,_,hw1,rfl⟩ := h
    rw [manager_of_transfer hw1]
    exact .of_eq rfl rfl rfl rfl
  · cases h
    exact .refl _

lemma sameSlots_of_releaseResidual {loan} (h : releaseResidual d env id loan w = .ok w') :
    SameSlots w.manager w'.manager := by
  unfold releaseResidual at h
  split at h
  · exact sameSlots_of_releaseCollateralInternal h
  · cases h
    exact .refl _

lemma sameSlots_of_releaseRepaid {cmp} (h : releaseRepaid d env cmp borrower id amount w = .ok w') :
    SameSlots w.manager w'.manager := by
  unfold releaseRepaid at h
  split at h
  · simp only [eq_ok] at h
    obtain ⟨_,hw1,rfl⟩ := h
    exact (sameSlots_of_releaseCollateralInternal hw1).trans (.of_eq rfl rfl rfl rfl)
  · cases h
    exact .refl _

end World

/-! ### The entry points on one loan -/

namespace LoanManager
open World Loan
variable {borrower liquidator : Address} {amount : Int}

def MovesSlot (w w' : World) : Prop :=
  ∃ id new, SlotStep id new w.manager w'.manager

lemma slotStep_of_requestLoan {term i}
    (hf : w.manager.slots.lookup (w.manager.loanCounter + 1) = none)
    (h : requestLoan d env borrower amount term w = .ok (w',i)) :
    SlotStep (w.manager.loanCounter + 1) (some (borrower,.Pending)) w.manager w'.manager := by
  simp only [requestLoan,incrementBorrowerLoanCount,eq_ok,Prod.mk.injEq] at h
  obtain ⟨-,-,-,-,-,-,nft,hn,-,-,-,_,⟨-,rfl⟩,_,-,_,⟨_,⟨-,rfl⟩,rfl⟩,rfl,rfl⟩ := h
  refine ⟨(Storage.writes_insert _ _ _).mapValues Loan.slot,fun b => ?_,Nat.le_succ _,
    fun _ => le_rfl,fun _ => ?_,rfl⟩
  · rw [hf]
    show Function.update w.manager.borrowerLoanCount borrower
      (w.manager.borrowerLoanCount borrower + 1) b = _
    by_cases hb : b = borrower
    · rw [hb,Function.update_self,held,Quota.held_pos rfl]
      rfl
    · rw [Function.update_of_ne hb,held,Quota.held_of_ne (Ne.symm hb)]
      rfl
  · rw [hn]
    exact Option.some_ne_none nft

lemma movesSlot_of_approveLoan (h : approveLoan d env id w = .ok w') : MovesSlot w w' := by
  simp only [approveLoan,acquireLock,eq_ok,readLoan_eq_ok] at h
  obtain ⟨_,-,-,-,-,_,ho,hd,_,-,_,-,-,-,_,⟨-,rfl⟩,_,-,_,-,_,hm,_,hw1,rfl⟩ := h
  have hl : SameSlots w.manager { w.manager with reentrancyLock := true } :=
    .of_eq rfl rfl rfl rfl
  have hp := of_manager_eq (manager_of_disburse hw1)
  exact ⟨id,_,.setLoan (hl.trans (.adjustTotalOutstanding hm))
    (hp.trans (.of_eq rfl rfl rfl rfl)) ho rfl (hd ▸ rfl)⟩

lemma movesSlot_of_cancelLoan (h : cancelLoan d env borrower id w = .ok w') : MovesSlot w w' := by
  simp only [cancelLoan,eq_ok,readLoan_eq_ok] at h
  obtain ⟨-,_,ho,-,hd,_,hw1,rfl⟩ := h
  have hp := sameSlots_of_returnCollateral hw1
  exact ⟨id,_,.setLoan (.refl _) (hp.publish env _) ho rfl (hd ▸ rfl)⟩

lemma movesSlot_of_rejectLoan {rsn} (h : rejectLoan d env id rsn w = .ok w') : MovesSlot w w' := by
  simp only [rejectLoan,eq_ok,readLoan_eq_ok] at h
  obtain ⟨_,-,-,_,ho,hd,_,hw1,rfl⟩ := h
  have hp := sameSlots_of_returnCollateral hw1
  exact ⟨id,_,.setLoan (.refl _) (hp.publish env _) ho rfl (hd ▸ rfl)⟩

lemma movesSlot_of_purgeLoan (h : purgeLoan d env id w = .ok w') : MovesSlot w w' := by
  simp only [purgeLoan,eq_ok,readLoan_eq_ok] at h
  obtain ⟨_,-,-,_,ho,hp,_,hw1,rfl⟩ := h
  exact ⟨id,_,.purge (sameSlots_of_releaseResidual hw1) ((refl _).publish env _) ho hp⟩

lemma movesSlot_of_depositCollateral (h : depositCollateral d env id amount w = .ok w') :
    MovesSlot w w' := by
  simp only [depositCollateral,eq_ok,readLoan_eq_ok] at h
  obtain ⟨-,-,_,ho,-,-,_,-,-,_,-,_,-,_,hw1,rfl⟩ := h
  have hp := of_manager_eq (manager_of_transfer hw1)
  exact ⟨id,_,.setLoan (.refl _) (hp.publish env _) ho rfl rfl⟩

lemma sameSlots_of_releaseCollateral (h : releaseCollateral d env id w = .ok w') :
    SameSlots w.manager w'.manager := by
  simp only [releaseCollateral,eq_ok] at h
  obtain ⟨_,-,-,_,hw1,rfl⟩ := h
  exact (sameSlots_of_releaseCollateralInternal hw1).publish env _

lemma movesSlot_of_extendLoan {extraLedgers}
    (h : extendLoan d env borrower id extraLedgers w = .ok w') : MovesSlot w w' := by
  simp only [extendLoan,eq_ok,readLoan_eq_ok] at h
  obtain ⟨-,-,-,_,ho,-,-,_,-,-,-,_,-,_,-,_,hw1,_,-,_,-,rfl⟩ := h
  have hp := of_manager_eq (manager_of_collectExtensionFee hw1)
  exact ⟨id,_,.setLoan hp ((refl _).publish env _) ho rfl rfl⟩

lemma movesSlot_of_refinanceLoan {newTerm}
    (h : refinanceLoan d env id amount newTerm w = .ok w') : MovesSlot w w' := by
  simp only [refinanceLoan,eq_ok,readLoan_eq_ok,Prod.exists] at h
  obtain ⟨-,_,-,-,old,ho,-,-,_,-,-,-,-,-,_,-,-,-,h⟩ := h
  obtain ⟨_,hl1,_,_,hl2,_,hl3,_,-,_,-,h⟩ := h
  obtain ⟨_,-,_,loan4,hv,_,-,_,hm,_,-,_,-,rfl⟩ := h
  obtain ⟨hn,hl4⟩ := keeps_of_movePrincipal hv
  have hl : loan4.slot = old.slot := hl4.trans ((slot_of_settleAccrued hl3).trans
      ((slot_of_accrueLateFee hl2).trans (slot_of_accrueInterest hl1)))
  have hs := (of_manager_eq hn).trans (.adjustTotalOutstanding hm)
  exact ⟨id,_,.setLoan hs ((refl _).publish env _) ho
    (borrower_of_slot hl :) (congrArg LoanStatus.holdsSlot (status_of_slot hl) :)⟩

lemma movesSlot_of_liquidate (h : liquidate d env liquidator id w = .ok w') : MovesSlot w w' := by
  simp only [liquidate,eq_ok,readLoan_eq_ok,Prod.exists] at h
  obtain ⟨-,-,old,ho,ha,_,_,_,hl1,_,-,_,-,-,h⟩ := h
  obtain ⟨_,-,_,-,_,-,loan2,hl2,_,-,_,hm,_,-,h⟩ := h
  obtain ⟨_,hw1,_,hw2,_,hw3,_,hw4,rfl⟩ := h
  have hs : loan2.slot = old.slot :=
    (slot_of_applyDebtRecovery hl2).trans (slot_of_currentTotalDebt hl1)
  have hp := of_manager_eq <| (manager_of_transferPositive hw4).trans <|
    (manager_of_transferPositive hw3).trans <| (manager_of_recordPoolRecovery hw2).trans
      (manager_of_transferPositive hw1)
  exact ⟨id,_,.close (.closeOutstanding hm) (hp.publish env _) ho
    (borrower_of_slot hs :) (ha ▸ rfl) rfl⟩

lemma movesSlot_of_markDefaulted {old} (ho : w.manager.loans.lookup id = some old)
    (ha : old.status = .Approved) (h : markDefaulted d env id old w = .ok w') : MovesSlot w w' := by
  simp only [markDefaulted,eq_ok] at h
  obtain ⟨_,-,_,-,_,hm,_,hw1,_,hw2,_,-,-,-,rfl⟩ := h
  have hp := (sameSlots_of_seizeCollateralInternal hw1).trans
    (.of_manager_eq (manager_of_recordPoolRecovery hw2))
  exact ⟨id,_,.close (.closeOutstanding hm) (hp.publish env _) ho rfl (ha ▸ rfl) rfl⟩

lemma movesSlot_of_checkDefault (h : checkDefault d env id w = .ok w') : MovesSlot w w' := by
  simp only [checkDefault,eq_ok,readLoan_eq_ok] at h
  obtain ⟨_,-,-,-,_,ho,ha,_,-,-,h⟩ := h
  exact movesSlot_of_markDefaulted ho ha h

lemma slotStep_of_closeRepaid {token cmp} {old loan loan' : Loan}
    {m m' m'' : LoanManager} (ho : m.loans.lookup id = some old) (ha : old.status = .Approved)
    (hs : loan.slot = old.slot) (h : m.closeRepaid token cmp loan = .ok (loan',m'))
    (hl : SameSlots (m'.setLoan id loan') m'') : SlotStep id (some loan'.slot) m m'' := by
  unfold closeRepaid at h
  split at h
  · simp only [eq_ok,Prod.mk.injEq] at h
    obtain ⟨_,hm1,rfl,rfl⟩ := h
    exact .close (.closeOutstanding hm1) hl ho (borrower_of_slot hs :) (ha ▸ rfl) rfl
  cases h
  exact .setLoan (.refl _) hl ho (borrower_of_slot hs)
    (congrArg LoanStatus.holdsSlot (status_of_slot hs))

lemma movesSlot_of_repay (h : repay d env borrower id amount w = .ok w') : MovesSlot w w' := by
  simp only [repay,eq_ok,readLoan_eq_ok,Prod.exists] at h
  obtain ⟨-,-,-,-,_,ho,-,ha,_,-,-,_,debt,_,hl1,h⟩ := h
  obtain ⟨-,-,_,-,_,-,_,-,_,-,loan2,hl2,_,-,h⟩ := h
  obtain ⟨_,_,hm,_,hw1,_,-,_,hw2,_,hw3,_,hw4,-,rfl⟩ := h
  have hs := (slot_forgiveDust (decide (debt ≤ w.manager.readMinRepaymentAmount)) loan2).trans
    ((slot_of_applySplit hl2).trans (slot_of_currentTotalDebt hl1))
  have hp := of_manager_eq <| (manager_of_recordForgiven hw3).trans <|
    (manager_of_recordLoanYield hw2).trans (manager_of_transfer hw1)
  exact ⟨id,_,slotStep_of_closeRepaid ho ha hs hm
    ((hp.trans (sameSlots_of_releaseRepaid hw4)).trans (.publishRepayment ..))⟩

/-! ### The counts -/

def loansIn (statuses : List LoanStatus) (borrower : Address) (m : LoanManager) : Nat :=
  m.loans.count fun loan => decide (loan.borrower = borrower ∧ loan.status ∈ statuses)

/-- The counts are those of the stored loans, no id is ahead of the counter, and there are no loans
before `initialize`. -/
structure Counted (m : LoanManager) : Prop where
  counts : ∀ b, m.borrowerLoanCount b = Quota.used LoanStatus.holdsSlot b m.slots
  id_le : ∀ id, m.slots.lookup id ≠ none → id ≤ m.loanCounter
  uninitialized : m.admin = none → m.nftContract = none ∧ ∀ id, m.slots.lookup id = none

lemma counted_empty : empty.Counted where
  counts := fun _ => rfl
  id_le := fun _ h => absurd rfl h
  uninitialized := fun _ => ⟨rfl,fun _ => rfl⟩

namespace Counted
variable {m m' : LoanManager} {new : Option (Address × LoanStatus)}

lemma of_sameSlots (hm : m.Counted) (h : SameSlots m m') : m'.Counted where
  counts := by
    intro b
    rw [h.counts,hm.counts,Quota.used_congr h.slots]
  id_le := by
    intro id hd
    rw [h.loanCounter]
    exact hm.id_le id (h.slots id ▸ hd)
  uninitialized := by
    rw [h.settings]
    intro ha
    obtain ⟨hn,hs⟩ := hm.uninitialized ha
    exact ⟨hn,fun id => (h.slots id).trans (hs id)⟩

lemma of_slotStep (hm : m.Counted) (h : SlotStep id new m m') : m'.Counted where
  counts := by
    intro b
    rw [h.counts,hm.counts,Quota.used_of_writes h.slots]
  id_le := by
    intro j hj
    by_cases hd : j = id
    · by_cases hn : m.slots.lookup id = none
      · exact hd ▸ h.covered hn
      · exact hd ▸ (hm.id_le id hn).trans h.counter_le
    · rw [h.slots.lookup_ne hd] at hj
      exact (hm.id_le j hj).trans h.counter_le
  uninitialized := by
    rw [h.settings]
    intro ha
    obtain ⟨hf,hs⟩ := hm.uninitialized ha
    exact absurd hf (h.initialized (hs id))

lemma of_configured (hm : m.Counted) (h : Configured m m') : m'.Counted where
  counts := by
    intro b
    rw [h.eq]
    exact hm.counts b
  id_le := by
    intro id hd
    have hs : m'.slots = m.slots := by rw [h.eq,slots,slots]
    rw [hs] at hd
    by_cases ha : m.admin = none
    · exact absurd ((hm.uninitialized ha).2 id) hd
    · rw [(h.kept ha).1]
      exact hm.id_le id hd
  uninitialized := fun ha => absurd ha h.admin

lemma fresh (hm : m.Counted) : m.slots.lookup (m.loanCounter + 1) = none := by
  by_contra hn
  exact Nat.not_succ_le_self _ (hm.id_le _ hn)

lemma count_ne_zero (hm : m.Counted) {loan} (hl : m.loans.lookup id = some loan)
    (hs : loan.status.holdsSlot = true) : m.borrowerLoanCount loan.borrower ≠ 0 := by
  have hh := Quota.held_le_used LoanStatus.holdsSlot loan.borrower id m.slots
  rw [lookup_slots,hl,Option.map_some,Loan.slot,Quota.held_pos hs,← hm.counts] at hh
  exact Nat.one_le_iff_ne_zero.mp hh

end Counted

lemma used_eq_loansIn (b) (m : LoanManager) : Quota.used LoanStatus.holdsSlot b m.slots =
    m.loansIn [.Pending,.Approved,.Cancelled,.Rejected] b := by
  unfold Quota.used slots loansIn
  rw [Storage.count_mapValues]
  congr 1
  funext loan
  rw [Bool.decide_and,Loan.slot]
  congr 1
  cases loan.status <;> rfl

lemma loansIn_mono {statuses statuses'} (h : statuses ⊆ statuses')
    (b) (m : LoanManager) : m.loansIn statuses b ≤ m.loansIn statuses' b := by
  refine Storage.count_mono (fun loan hl => ?_) m.loans
  obtain ⟨hb,hs⟩ := of_decide_eq_true hl
  exact decide_eq_true ⟨hb,h hs⟩

/-! ### Calls and runs -/

lemma counted_of_checkDefaultsSteps {ids : List Nat} {n n'} (hw : w.manager.Counted)
    (h : ids.foldlM (checkDefaultsStep d env) (w,n) = .ok (w',n')) : w'.manager.Counted := by
  induction ids generalizing w n with
  | nil =>
    cases h
    exact hw
  | cons id ids ih =>
    simp only [List.foldlM_cons,bind_eq_ok,Prod.exists] at h
    obtain ⟨_,_,hs,h⟩ := h
    refine ih ?_ h
    unfold checkDefaultsStep at hs
    split at hs
    · cases hs
      exact hw
    · next old ho =>
      split at hs
      · cases hs
        exact hw
      · next ha =>
        simp only [bind_eq_ok] at hs
        obtain ⟨_,-,hs⟩ := hs
        split at hs
        · cases hs
          exact hw
        simp only [eq_ok,Prod.mk.injEq] at hs
        obtain ⟨_,hw2,_,-,rfl,-⟩ := hs
        obtain ⟨_,_,hm⟩ := movesSlot_of_markDefaulted ho (Decidable.not_not.mp ha) hw2
        exact hw.of_slotStep hm

end LoanManager

open LoanManager

lemma LoanCall.counted {c : LoanCall} (hw : w.manager.Counted) (h : c.exec d env w = .ok w') :
    w'.manager.Counted := by
  have of_moves (hm : MovesSlot w w') : w'.manager.Counted := by
    obtain ⟨_,_,hs⟩ := hm
    exact hw.of_slotStep hs
  cases c with
  | requestLoan =>
    simp only [exec,eq_ok,Prod.exists] at h
    obtain ⟨w1,_,hr,rfl⟩ := h
    exact hw.of_slotStep (slotStep_of_requestLoan hw.fresh hr)
  | approveLoan => exact of_moves (movesSlot_of_approveLoan h)
  | repay => exact of_moves (movesSlot_of_repay h)
  | depositCollateral => exact of_moves (movesSlot_of_depositCollateral h)
  | releaseCollateral => exact hw.of_sameSlots (sameSlots_of_releaseCollateral h)
  | liquidate => exact of_moves (movesSlot_of_liquidate h)
  | cancelLoan => exact of_moves (movesSlot_of_cancelLoan h)
  | rejectLoan => exact of_moves (movesSlot_of_rejectLoan h)
  | purgeLoan => exact of_moves (movesSlot_of_purgeLoan h)
  | refinanceLoan => exact of_moves (movesSlot_of_refinanceLoan h)
  | extendLoan => exact of_moves (movesSlot_of_extendLoan h)
  | checkDefault => exact of_moves (movesSlot_of_checkDefault h)
  | checkDefaults =>
    simp only [exec,LoanManager.checkDefaults,eq_ok,Prod.exists] at h
    obtain ⟨w1,_,⟨_,-,-,-,ht⟩,rfl⟩ := h
    exact counted_of_checkDefaultsSteps hw ht

lemma Call.counted {c : Call} (hw : w.manager.Counted) (h : c.exec d env w = .ok w') :
    w'.manager.Counted := by
  cases c with
  | pool =>
    simp only [exec,eq_ok] at h
    obtain ⟨_,-,rfl⟩ := h
    exact hw
  | loan => exact LoanCall.counted hw h
  | setting =>
    simp only [exec,eq_ok] at h
    obtain ⟨_,hm,rfl⟩ := h
    exact hw.of_configured (SettingCall.configured hm)

def callSystem (d : Deployment) : Transactional World (Env × Call) Fault where
  exec := fun i w => i.2.exec d i.1 w

def World.deployed (p : PoolWorld) : World := { toPoolWorld := p, manager := LoanManager.empty }

lemma counted_run (d p cs) : ((callSystem d).run (World.deployed p) cs).manager.Counted :=
  Transactional.run_induction (S := callSystem d) (I := fun w => w.manager.Counted)
    (fun _ _ _ hw hx => Call.counted hw hx) counted_empty cs

/-- Where a call can reach `decrement_borrower_loan_count`: for which borrower, and what the counts
are then. A batch of defaults reaches it once for every loan. -/
inductive LoanCall.Decrements (d : Deployment) (env : Env) (w : World) :
    LoanCall → Address → (Address → Nat) → Prop
  | repay (borrower : Address) (loanId : Nat) (amount : Int) (loan : Loan)
    (hloan : w.manager.loans.lookup loanId = some loan) (hstatus : loan.status = .Approved) :
    Decrements d env w (.repay borrower loanId amount) loan.borrower w.manager.borrowerLoanCount
  | liquidate (liquidator : Address) (loanId : Nat) (loan : Loan)
    (hloan : w.manager.loans.lookup loanId = some loan) (hstatus : loan.status = .Approved) :
    Decrements d env w (.liquidate liquidator loanId) loan.borrower w.manager.borrowerLoanCount
  | purgeLoan (loanId : Nat) (loan : Loan) (hloan : w.manager.loans.lookup loanId = some loan)
    (hstatus : loan.status = .Cancelled ∨ loan.status = .Rejected) :
    Decrements d env w (.purgeLoan loanId) loan.borrower w.manager.borrowerLoanCount
  | checkDefault (loanId : Nat) (loan : Loan) (hloan : w.manager.loans.lookup loanId = some loan)
    (hstatus : loan.status = .Approved) :
    Decrements d env w (.checkDefault loanId) loan.borrower w.manager.borrowerLoanCount
  | checkDefaults (before after : List Nat) (loanId : Nat) (u : World) (n : Nat) (loan : Loan)
    (hbefore : before.foldlM (checkDefaultsStep d env) (w, 0) = .ok (u, n))
    (hloan : u.manager.loans.lookup loanId = some loan) (hstatus : loan.status = .Approved) :
    Decrements d env w (.checkDefaults (before ++ loanId :: after)) loan.borrower
      u.manager.borrowerLoanCount

lemma LoanCall.Decrements.count_ne_zero {c : LoanCall} {b counts}
    (hw : w.manager.Counted) (h : c.Decrements d env w b counts) : counts b ≠ 0 := by
  cases h with
  | repay _ _ _ loan hl hs | liquidate _ _ loan hl hs
  | checkDefault _ loan hl hs => exact hw.count_ne_zero hl (hs ▸ rfl)
  | purgeLoan _ loan hl hs =>
    refine hw.count_ne_zero hl ?_
    rcases hs with hs | hs <;> rw [hs] <;> rfl
  | checkDefaults bef _ _ u n loan hb hl hs =>
    exact (counted_of_checkDefaultsSteps hw hb).count_ne_zero hl (hs ▸ rfl)

lemma loansIn_le_of_requestLoan {borrower amount term i}
    (hw : w.manager.Counted) (h : requestLoan d env borrower amount term w = .ok (w',i)) :
    w'.manager.loansIn [.Pending,.Approved] borrower ≤ w'.manager.readMaxLoansPerBorrower := by
  have hs := slotStep_of_requestLoan hw.fresh h
  have hc : w.manager.borrowerLoanCount borrower < w.manager.readMaxLoansPerBorrower := by
    simp only [requestLoan,eq_ok] at h
    obtain ⟨-,-,-,-,-,-,_,-,-,-,hc,-⟩ := h
    exact hc
  calc w'.manager.loansIn [.Pending,.Approved] borrower
      ≤ w'.manager.loansIn [.Pending,.Approved,.Cancelled,.Rejected] borrower :=
        loansIn_mono (by decide) borrower w'.manager
    _ = w'.manager.borrowerLoanCount borrower := by
        rw [(hw.of_slotStep hs).counts,used_eq_loansIn]
    _ = w.manager.borrowerLoanCount borrower + 1 := by
        rw [hs.counts,hw.fresh,held,Quota.held_pos rfl]
        rfl
    _ ≤ w'.manager.readMaxLoansPerBorrower := by
        rw [hs.settings]
        exact hc

/-- **Borrower slots**: after any calls by anyone on a manager that was just deployed, the count of
every borrower is the number of stored loans that are pending, approved, cancelled or rejected. -/
theorem borrower_slots (d : Deployment) (p : PoolWorld) (cs : List (Env × Call)) (b : Address) :
    let w := (callSystem d).run (World.deployed p) cs
    w.manager.borrowerLoanCount b =
        w.manager.loansIn [.Pending,.Approved,.Cancelled,.Rejected] b ∧
      (∀ env c counts, LoanCall.Decrements d env w c b counts → counts b ≠ 0) ∧
      ∀ env amount term w' loanId, requestLoan d env b amount term w = .ok (w', loanId) →
        w'.manager.loansIn [.Pending,.Approved] b ≤ w'.manager.readMaxLoansPerBorrower := by
  intro w
  have hw : w.manager.Counted := counted_run d p cs
  refine ⟨?_,?_,?_⟩
  · rw [hw.counts,used_eq_loansIn]
  · intro env c counts h
    exact h.count_ne_zero hw
  · intro env amount term w' loanId h
    exact loansIn_le_of_requestLoan hw h

end DukaPay
