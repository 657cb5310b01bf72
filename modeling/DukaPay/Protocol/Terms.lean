import DukaPay.Protocol.Debt

/-! Interest accrues in steps, whenever a call looks at the loan, and refinancing and extension
change the terms that the next steps go by. -/
namespace DukaPay
open Contractlib IntType List

namespace Loan
variable {env : Env} {loan loan' : Loan}

/-! ### Accrual in steps -/

lemma interestOver_add (loan : Loan) (m n) :
    loan.interestOver m + loan.interestOver n ≤ loan.interestOver (m + n) ∧
    loan.interestOver (m + n) ≤ loan.interestOver m + loan.interestOver n + 1 := by
  unfold interestOver
  push_cast
  rw [mul_add,add_mul]
  omega

lemma scaled_of_step (hs : loan.status = .Approved)
    (hr : 0 ≤ loan.interestResidual ∧ loan.interestResidual < 1000000)
    (hl : loan.lastInterestLedger ≠ 0) (hle : loan.lastInterestLedger ≤ env.sequence)
    (h : loan.accrueInterest env = .ok loan') :
    loan'.lastInterestLedger = env.sequence ∧ loan'.scaledInterest =
    loan.scaledInterest + loan.interestOver (env.sequence - loan.lastInterestLedger) := by
  obtain ⟨-,-,-,hc⟩ := scaled_of_accrueInterest hs hr h
  split at hc
  · have he : env.sequence = loan.lastInterestLedger := by omega
    rw [hc,he,Nat.sub_self]
    simp [interestOver]
  · exact hc

variable {envs : List Env} {last : Env}

lemma scaled_of_steps (hs : loan.status = .Approved)
    (hre : 0 ≤ loan.interestResidual ∧ loan.interestResidual < 1000000)
    (hl : loan.lastInterestLedger ≠ 0)
    (ho : (loan.lastInterestLedger :: (envs ++ [last]).map Env.sequence).Pairwise (· ≤ ·))
    (h : (envs ++ [last]).foldlM (fun loan env => loan.accrueInterest env) loan = .ok loan') :
    ∃ lost : Int, 0 ≤ lost ∧ lost ≤ envs.length ∧ loan'.scaledInterest + lost =
    loan.scaledInterest + loan.interestOver (last.sequence - loan.lastInterestLedger) ∧
    loan.accruedInterest ≤ loan'.accruedInterest ∧
    0 ≤ loan'.interestResidual ∧ loan'.interestResidual < 1000000 := by
  induction envs generalizing loan with
  | nil =>
    simp only [nil_append,foldlM_cons,foldlM_nil,eq_ok] at h
    obtain ⟨_,h,rfl⟩ := h
    obtain ⟨-,hn,hrs,-⟩ := scaled_of_accrueInterest hs hre h
    obtain ⟨-,hc⟩ := scaled_of_step hs hre hl (by simpa using ho) h
    exact ⟨0,le_refl 0,le_refl _,by rw [add_zero,hc],hn,hrs⟩
  | cons env envs ih =>
    simp only [cons_append,foldlM_cons,bind_eq_ok] at h
    obtain ⟨mid,h1,h⟩ := h
    simp only [cons_append,map_cons] at ho
    obtain ⟨hfs,hr⟩ := pairwise_cons.mp ho
    have hle : loan.lastInterestLedger ≤ env.sequence := hfs _ (mem_cons_self ..)
    obtain ⟨hf,hmono',hr',-⟩ := scaled_of_accrueInterest hs hre h1
    obtain ⟨hm,hc⟩ := scaled_of_step hs hre hl hle h1
    obtain ⟨lost,h0,hls,hsm,hn,hrs⟩ := ih ((congrArg status hf :).trans hs) hr'
      (by omega) (hm ▸ hr) h
    have ht : env.sequence ≤ last.sequence :=
      (pairwise_cons.mp hr).1 _ (mem_map_of_mem (by simp))
    have ha := interestOver_add loan (env.sequence - loan.lastInterestLedger)
      (last.sequence - env.sequence)
    rw [show env.sequence - loan.lastInterestLedger + (last.sequence - env.sequence) =
      last.sequence - loan.lastInterestLedger by omega] at ha
    have he : mid.interestOver = loan.interestOver := (congrArg interestOver hf :)
    rw [hm,he,hc] at hsm
    refine ⟨loan.interestOver (last.sequence - loan.lastInterestLedger) -
      loan.interestOver (env.sequence - loan.lastInterestLedger) -
      loan.interestOver (last.sequence - env.sequence) + lost,?_,?_,?_,by omega,hrs⟩
    · omega
    · rw [length_cons]
      push_cast
      omega
    · omega

/-- **Accrual in steps**: over ledgers in order, accruing at each of them yields at most as much as
accruing once, and less than one millionth less for each step. -/
theorem accrual_partition (loan stepped single : Loan) (envs : List Env) (last : Env)
    (hs : loan.status = .Approved)
    (hres : 0 ≤ loan.interestResidual ∧ loan.interestResidual < 1000000)
    (horder : (loan.lastInterestLedger :: (envs ++ [last]).map Env.sequence).Pairwise (· ≤ ·))
    (hstepped : (envs ++ [last]).foldlM (fun loan env => loan.accrueInterest env) loan =
      .ok stepped) (hsingle : loan.accrueInterest last = .ok single) :
    stepped.scaledInterest ≤ single.scaledInterest ∧
      single.scaledInterest < stepped.scaledInterest + (envs ++ [last]).length ∧
      loan.accruedInterest ≤ stepped.accruedInterest ∧
      0 ≤ stepped.interestResidual ∧ stepped.interestResidual < 1000000 := by
  rw [length_append,length_singleton]
  push_cast
  by_cases hl : loan.lastInterestLedger = 0
  · -- before the approval nothing accrues
    have hd (env : Env) : loan.accrueInterest env = .ok loan := by
      rw [accrueInterest,if_neg (not_not.mpr hs),if_pos (.inl hl)]
      rfl
    have hf (l : List Env) : l.foldlM (fun loan env => loan.accrueInterest env) loan =
        .ok loan := by
      induction l with
      | nil => rfl
      | cons env l ih =>
        rw [foldlM_cons,hd]
        exact ih
    cases (hf _).symm.trans hstepped
    cases (hd last).symm.trans hsingle
    exact ⟨le_refl _,by omega,le_refl _,hres⟩
  · obtain ⟨lost,h0,ho,hu,hr⟩ := scaled_of_steps hs hres hl horder hstepped
    have hle : loan.lastInterestLedger ≤ last.sequence :=
      (pairwise_cons.mp horder).1 _ (mem_map_of_mem (by simp))
    obtain ⟨-,hc⟩ := scaled_of_step hs hres hl hle hsingle
    exact ⟨by omega,by omega,hr⟩

/-- A second look at the loan costs the pool one millionth. -/
theorem accrual_partition_small : let stepped := { Loan.small with
      accruedInterest := 520, interestResidual := 798610, lastInterestLedger := 15000 }
    let single := { Loan.small with
      accruedInterest := 520, interestResidual := 798611, lastInterestLedger := 15000 }
    stepped.scaledInterest ≤ single.scaledInterest ∧
      single.scaledInterest < stepped.scaledInterest + 2 ∧
      Loan.small.accruedInterest ≤ stepped.accruedInterest ∧
      0 ≤ stepped.interestResidual ∧ stepped.interestResidual < 1000000 :=
  accrual_partition .small _ _ [.small 9000] (.small 15000) rfl (by decide) (by decide +kernel)
    (by decide +kernel) (by decide +kernel)

/-- **A repayment in proportion**: it is split without a failure and exactly, and every part of the
debt gets its share of the payment, rounded down or up. -/
theorem split_rounds (loan : Loan) (amount : Int) (hprincipal : 0 ≤ loan.remaining)
    (hinterest : 0 ≤ loan.accruedInterest) (hfee : 0 ≤ loan.accruedLateFee) (hpos : 0 < loan.debt)
    (hdebt : i128.Fits loan.debt) (h0 : 0 ≤ amount) (hle : amount ≤ loan.debt)
    (hfits : i128.Fits (amount * loan.debt)) :
    ∃ split : Split, loan.proportionalRepaymentSplit amount = .ok split ∧
      split.principal + split.interest + split.lateFee = amount ∧
      ∀ payment due, (payment, due) ∈ [(split.principal, loan.remaining),
      (split.interest, loan.accruedInterest),(split.lateFee, loan.accruedLateFee)] →
      0 ≤ payment ∧ payment ≤ due ∧ (payment = ⌊((amount * due : Int) : ℚ) / loan.debt⌋ ∨
      payment = ⌈((amount * due : Int) : ℚ) / loan.debt⌉) := by
  have hd := dues_nonneg hprincipal hinterest hfee
  have hp : ∀ x, 0 ≤ x → x ≤ loan.debt → i128.Fits x :=
    fun x hx hle => ⟨le_trans (by decide) hx,hle.trans hdebt.2⟩
  have hr : loan.remainingPrincipal = .ok loan.remaining := by
    simp only [remainingPrincipal,expect_eq_ok,checkedSub_eq_some]
    exact ⟨hp loan.remaining hprincipal (by unfold debt; omega),rfl⟩
  have ht : loan.totalDebt = .ok loan.debt := by
    simp only [totalDebt,hr,eq_ok,checkedAdd_eq_some]
    exact ⟨_,rfl,_,⟨hp _ (by omega) (by unfold debt; omega),rfl⟩,hdebt,rfl⟩
  obtain ⟨a,hs⟩ := exists_shares hpos hd (sum_dues loan) h0 hle hdebt hfits
  obtain ⟨hl,a',hn,hu,he⟩ :=
    exists_units hpos hd (sum_dues loan) h0 hle hdebt hs
  rw [Fin.sum_univ_three] at hu
  refine ⟨⟨a'.payments 0,a'.payments 1,a'.payments 2⟩,?_,hu,?_⟩
  · simp only [proportionalRepaymentSplit,bind_eq_ok]
    refine ⟨_,hr,_,ht,?_⟩
    rw [if_neg hpos.ne']
    simp only [eq_ok]
    exact ⟨a,hs,_,⟨hl,rfl⟩,a',hn,rfl⟩
  · simp only [mem_cons,not_mem_nil,or_false,Prod.mk.injEq]
    rintro _ _ (⟨rfl,rfl⟩ | ⟨rfl,rfl⟩ | ⟨rfl,rfl⟩)
    · exact he 0
    · exact he 1
    · exact he 2

theorem split_rounds_small :
    let loan := { Loan.small with accruedInterest := 520, accruedLateFee := 7 }
    ∃ split : Split, loan.proportionalRepaymentSplit 1000 = .ok split ∧
      split.principal + split.interest + split.lateFee = 1000 :=
  (split_rounds _ 1000 (by decide) (by decide) (by decide) (by decide) (by decide) (by decide)
    (by decide) (by decide)).imp fun _ h => ⟨h.1,h.2.1⟩

/-- Even a payment of nothing fails if the parts of the debt add up to more than an `i128`. -/
theorem split_overflows :
    let loan := { Loan.small with amount := 2 ^ 127 - 1, principalPaid := 0, accruedInterest := 1 }
    0 ≤ loan.remaining ∧ 0 ≤ loan.accruedInterest ∧ 0 ≤ loan.accruedLateFee ∧ 0 < loan.debt ∧
      i128.Fits (0 * loan.debt) ∧
      loan.proportionalRepaymentSplit 0 = .error (.panic "debt overflow") :=
  ⟨by decide,by decide,by decide,by decide,by decide,rfl⟩

end Loan

/-! ### Refinancing -/

variable {d : Deployment}

/-- **Collateral after refinancing**: the refund leaves the new amount covered exactly when the
principal does not shrink or the collateral was large enough against the old principal. -/
theorem refinanced_covered_iff (g : Genesis d) (is : List (Invocation d)) (env : Env)
    (loanId : Nat) (newAmount : Int) (newTerm : Nat) (loan loan' : Loan) (w' : World)
    (hloan : (g.after is).manager.loans.lookup loanId = some loan)
    (h : LoanManager.refinanceLoan d env loanId newAmount newTerm (g.after is) = .ok w')
    (hloan' : w'.manager.loans.lookup loanId = some loan') :
    loan'.amount ≤ loan'.collateralAmount ↔ loan.remaining ≤ newAmount ∨
      (newAmount - 1) * loan.remaining < loan.collateralAmount * newAmount := by
  obtain ⟨old,-,-,new,-,hd,-,-,-,-,-,-,⟨ha,hn,ho,hc⟩,hp⟩ :=
    posting_of_refinanceLoan (g.inOrder is).sound h
  cases hd.symm.trans hloan
  cases hp.loans.lookup_self.symm.trans hloan'
  rw [ha,hc,refund]
  split
  · next hl =>
    rw [or_iff_right (by omega)]
    have hlt := Int.ediv_lt_iff_lt_mul (a := loan.collateralAmount * (loan.remaining - newAmount))
      (b := loan.collateralAmount - newAmount + 1) (by omega : 0 < loan.remaining)
    have hm : (loan.collateralAmount - newAmount + 1) * loan.remaining -
        loan.collateralAmount * (loan.remaining - newAmount) =
        loan.collateralAmount * newAmount - (newAmount - 1) * loan.remaining := by ring
    omega
  · exact iff_of_true (by omega) (.inl (by omega))

theorem refinanced_covered_iff_small :
    ∃ w' loan', LoanManager.refinanceLoan .small (.small 15000) 1 4000 1000
    (Genesis.small.after Genesis.pledged) = .ok w' ∧
    w'.manager.loans.lookup 1 = some loan' ∧ loan'.amount ≤ loan'.collateralAmount := by
  have hr : (fun w => (w.manager.loans.lookup 1).isSome) <$> LoanManager.refinanceLoan .small
      (.small 15000) 1 4000 1000 (Genesis.small.after Genesis.pledged) = .ok true := by
    decide +kernel
  obtain ⟨w',hw',hs⟩ := map_eq_ok.mp hr
  obtain ⟨loan',hloan'⟩ := Option.isSome_iff_exists.mp hs
  exact ⟨w',loan',hw',hloan',(refinanced_covered_iff Genesis.small Genesis.pledged (.small 15000)
    1 4000 1000 _ loan' w' Genesis.lookup_pledged hw' hloan').mpr (.inr (by decide))⟩

/-- A loan of 5000 with a collateral of 4000 is refinanced to 4000. A fifth of the collateral goes
back. -/
theorem refund_uncovers :
    (fun w => (w.manager.loans.lookup 1).map fun loan => (loan.amount, loan.collateralAmount)) <$>
    LoanManager.refinanceLoan .small (.small 15000) 1 4000 1000 (Genesis.small.after
    (Genesis.lent ++ [.small 1 (.loan (.depositCollateral 1 4000)) nofun])) =
    .ok (some (4000, 3200)) := by
  decide +kernel

end DukaPay
