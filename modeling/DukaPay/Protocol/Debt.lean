import DukaPay.Protocol.Accounts

/-! The debt of a loan is capped where late fees are charged, but not where interest accrues. -/
namespace DukaPay
open Contractlib
variable {d : Deployment} {env : Env} {w w' : World}

/-- **Debt cap**: the total debt of an approved loan is at most twice its amount exactly when what
it owes with the interest due, but without new late fees, is. -/
theorem debt_cap_iff (g : Genesis d) (is : List (Invocation d)) (env : Env) (id : Nat)
    (loan loan' : Loan) (total lateFeeDelta : Int)
    (hloan : (g.after is).manager.loans.lookup id = some loan) (happroved : loan.status = .Approved)
    (h : loan.currentTotalDebt env (g.after is).manager.toSettings =
      .ok (loan', total, lateFeeDelta)) :
    total = loan'.amount - loan'.principalPaid + loan'.accruedInterest + loan'.accruedLateFee ∧
      loan'.amount = loan.amount ∧ (total ≤ Loan.maxPenaltyMultiplier * loan.amount ↔
      loan.amount - loan.principalPaid + loan.accruedInterest + loan.accruedLateFee +
      loan.interestDue env ≤ Loan.maxPenaltyMultiplier * loan.amount) := by
  have hs := (g.inOrder is).sound.loan id loan hloan
  obtain ⟨ha,rfl,hc⟩ := Loan.of_currentTotalDebt hs.toInRange happroved h
  exact ⟨rfl,ha.amount,hc⟩

/-- After 15000 ledgers a loan of 5000 owes 520 of interest, which is within the cap. -/
theorem debt_cap_iff_small : Loan.small.currentTotalDebt (.small 15000)
    (Genesis.small.after Genesis.lent).manager.toSettings = .ok ({ Loan.small with
    accruedInterest := 520, interestResidual := 798611, lastInterestLedger := 15000 }, 5520, 0) ∧
    (5520 : Int) ≤ Loan.maxPenaltyMultiplier * Loan.small.amount := by
  refine ⟨by decide +kernel,?_⟩
  exact (debt_cap_iff Genesis.small Genesis.lent (.small 15000) 1 Loan.small { Loan.small with
      accruedInterest := 520, interestResidual := 798611, lastInterestLedger := 15000 } 5520 0
    Genesis.lookup_lent rfl (by decide +kernel)).2.2.mpr (by decide)

/-- The interest of 200000 ledgers alone takes the debt of a loan of 5000 beyond 10000. -/
theorem debt_cap_exceeded :
    (Genesis.small.after Genesis.lent).manager.loans.lookup 1 = some Loan.small ∧
      Loan.small.status = .Approved ∧
      Loan.small.currentTotalDebt (.small 200000)
          (Genesis.small.after Genesis.lent).manager.toSettings =
        .ok ({ Loan.small with
          accruedInterest := 6944
          interestResidual := 409722
          lastInterestLedger := 200000
          lastLateFeeLedger := 200000 }, 11944, 0) ∧
      Loan.maxPenaltyMultiplier * Loan.small.amount < 11944 :=
  ⟨Genesis.lookup_lent,rfl,by decide +kernel,by decide⟩

def World.paidIn (d : Deployment) (w : World) : Int := w.bank.total (intoPool d d.token)

/-- From `w` to `w'`, no record counts more income as paid than tokens came into the pool. -/
def World.IncomeBacked (d : Deployment) (w w' : World) : Prop :=
  ∀ id old new, w.manager.loans.lookup id = some old → w'.manager.loans.lookup id = some new →
    new.income - old.income ≤ w'.paidIn d - w.paidIn d

lemma Posting.incomeBacked_iff {id new x} (h : Posting d id new x w w') (hn : 0 ≤ x.inflow) :
    World.IncomeBacked d w w' ↔ ∀ old loan, w.manager.loans.lookup id = some old →
    new = some loan → loan.income ≤ old.income + x.inflow := by
  have hp : w'.paidIn d - w.paidIn d = x.inflow := by
    unfold World.paidIn
    rw [h.flow.intoPool,if_pos rfl]
    omega
  unfold World.IncomeBacked
  rw [hp]
  constructor
  · rintro hb old loan ho rfl
    have := hb id old loan ho h.loans.lookup_self
    omega
  · intro hl j old' new' ho' hn'
    obtain rfl | hj := eq_or_ne j id
    · rw [h.loans.lookup_self] at hn'
      have := hl old' new' ho' hn'
      omega
    rw [h.loans.lookup_ne hj,ho'] at hn'
    cases hn'
    omega

lemma incomeBacked_of_checkDefaults {ids n} (hw : w.Sound d)
    (h : LoanManager.checkDefaults d env ids w = .ok (w',n)) : World.IncomeBacked d w w' := by
  have hb := checkDefaults_induction (I := fun _ u => w.paidIn d ≤ u.paidIn d ∧ ∀ id old new,
      w.manager.loans.lookup id = some old → u.manager.loans.lookup id = some new →
        new.income = old.income)
    (fun _ _ _ hu => hu) ?_ hw h ⟨le_refl _,?_⟩
  · intro id old new ho hnw
    have hn := hb.2 id old new ho hnw
    have hp := hb.1
    omega
  · rintro id _ u u' hu ⟨old,ho,-,-,ht⟩ ⟨hp,hn⟩
    refine ⟨?_,fun j old' new' ho' hn' => ?_⟩
    · have hc := (hu.loan id old ho).collateralAmount_nonneg
      unfold World.paidIn at hp ⊢
      rw [ht.flow.intoPool,if_pos rfl]
      simp only [recoveryAmounts]
      omega
    · obtain rfl | hj := eq_or_ne j id
      · rw [ht.loans.lookup_self] at hn'
        cases hn'
        exact hn j old' old ho' ho
      · rw [ht.loans.lookup_ne hj] at hn'
        exact hn j old' new' ho' hn'
  · intro id old new ho hnw
    rw [ho] at hnw
    cases hnw
    rfl

def LoanCall.SettlesWithin (env : Env) (w : World) (c : LoanCall) : Prop :=
  ∀ loanId newAmount newTerm, c = .refinanceLoan loanId newAmount newTerm →
    ∀ loan accrued accrued' fee, w.manager.loans.lookup loanId = some loan →
      loan.accrueInterest env = .ok accrued →
      accrued.accrueLateFee env w.manager.toSettings = .ok (accrued',fee) →
        accrued'.accruedInterest + accrued'.accruedLateFee ≤
          max 0 (loan.amount - loan.principalPaid - newAmount)

/-- **Income**: a call counts at most the tokens it brought into the pool as paid interest and fees
exactly when it is not a refinancing that settles more than the principal it returns. -/
theorem income_backed_iff (g : Genesis d) (is : List (Invocation d)) (env : Env) (c : LoanCall)
    (w' : World) (henv : env.External d) (h : c.exec d env (g.after is) = .ok w') :
    World.IncomeBacked d (g.after is) w' ↔ c.SettlesWithin env (g.after is) := by
  have hw := (g.inOrder is).sound
  by_cases hr : ∃ loanId newAmount newTerm, c = .refinanceLoan loanId newAmount newTerm
  · obtain ⟨loanId,newAmount,newTerm,rfl⟩ := hr
    obtain ⟨old,accrued,accrued',new,fee,ho,-,he,hf,-,_,_,-,hp⟩ :=
      posting_of_refinanceLoan hw h
    rw [hp.incomeBacked_iff (le_max_left 0 _)]
    have hn : new.income = old.income + (accrued'.accruedInterest + accrued'.accruedLateFee) := by
      unfold Loan.income
      omega
    constructor
    · rintro hle _ _ _ ⟨⟩ loan a a' fee' hl ha ha'
      have hb := hle old new ho rfl
      rw [hn,add_le_add_iff_left] at hb
      rw [ho] at hl
      cases hl
      rw [he] at ha
      cases ha
      rw [hf] at ha'
      cases ha'
      exact hb
    · rintro hs old' loan hold' ⟨⟩
      rw [ho] at hold'
      cases hold'
      rw [hn,add_le_add_iff_left]
      exact hs loanId newAmount newTerm rfl old accrued accrued' fee ho he hf
  · have hs : c.SettlesWithin env (g.after is) := by
      intro loanId newAmount newTerm hc
      exact absurd ⟨loanId,newAmount,newTerm,hc⟩ hr
    refine iff_of_true ?_ hs
    rcases LoanCall.posting_or_batch hw henv h with
      ⟨id,new,x,hp,hm⟩ | ⟨ids,n,rfl,ht⟩
    · rw [hp.incomeBacked_iff hm.inflow_nonneg]
      intro old loan ho hnw
      exact (hm.income old loan ho hnw).resolve_right hr
    · exact incomeBacked_of_checkDefaults hw ht

/-- Refinancing to 4000 returns 1000 of principal, which is more than the 520 of interest that it
counts as paid. -/
theorem income_backed_iff_small :
    ∃ w', LoanCall.exec .small (.small 15000) (Genesis.small.after Genesis.pledged)
    (.refinanceLoan 1 4000 1000) = .ok w' ∧
    World.IncomeBacked .small (Genesis.small.after Genesis.pledged) w' := by
  have hr : (fun _ => ()) <$> LoanCall.exec .small (.small 15000)
      (Genesis.small.after Genesis.pledged) (.refinanceLoan 1 4000 1000) = .ok () := by
    decide +kernel
  obtain ⟨w',hw',-⟩ := map_eq_ok.mp hr
  refine ⟨w',hw',(income_backed_iff Genesis.small Genesis.pledged (.small 15000)
    (.refinanceLoan 1 4000 1000) w' (Env.small_external 15000) hw').mpr ?_⟩
  rintro _ _ _ ⟨⟩ loan accrued accrued' fee hl hn hf
  rw [Genesis.lookup_pledged] at hl
  cases hl
  have ha : Loan.accrueInterest (.small 15000) { Loan.small with collateralAmount := 6000 } =
      .ok { Loan.small with
        collateralAmount := 6000
        accruedInterest := 520
        interestResidual := 798611
        lastInterestLedger := 15000 } := by
    decide +kernel
  rw [ha] at hn
  cases hn
  -- the loan is not late, so no fee is charged
  cases hf
  decide

/-- Refinancing to the same amount counts 520 of interest as paid, and nothing comes into the pool. -/
theorem income_not_backed :
    ∃ w', LoanCall.exec .small (.small 15000) (Genesis.small.after Genesis.pledged)
    (.refinanceLoan 1 5000 1000) = .ok w' ∧
    ¬ World.IncomeBacked .small (Genesis.small.after Genesis.pledged) w' := by
  have hr : (fun w : World => ((w.manager.loans.lookup 1).map Loan.interestPaid,
      (w.manager.loans.lookup 1).map Loan.lateFeePaid,w.paidIn .small)) <$>
        LoanCall.exec .small (.small 15000) (Genesis.small.after Genesis.pledged)
          (.refinanceLoan 1 5000 1000) =
      .ok (some 520,some 0,(Genesis.small.after Genesis.pledged).paidIn .small) := by
    decide +kernel
  obtain ⟨w',hw',hv⟩ := map_eq_ok.mp hr
  simp only [Prod.mk.injEq,Option.map_eq_some_iff] at hv
  obtain ⟨⟨new,hn,hi⟩,⟨_,hnew',hf⟩,hp⟩ := hv
  rw [hn] at hnew'
  cases hnew'
  refine ⟨w',hw',fun hb => ?_⟩
  have hle := hb 1 _ new Genesis.lookup_pledged hn
  rw [hp,sub_self,Loan.income,hi,hf] at hle
  revert hle
  decide

end DukaPay
