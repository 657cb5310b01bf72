import DukaPay.Protocol.Settlement

/-! The operations of the loan manager taken together. -/
namespace DukaPay
open Contractlib List
variable {d : Deployment} {env : Env} {w w' : World} {id : Nat}

def Loan.income (loan : Loan) : Int := loan.interestPaid + loan.lateFeePaid

def Loan.shortfall (loan : Loan) : Int := max 0 (loan.remaining - loan.collateralAmount)

def World.defaultLoss (env : Env) (w : World) (id : Nat) : Int :=
  match w.manager.loans.lookup id with
  | none => 0
  | some loan =>
    if loan.status = .Approved ∧ w.manager.isPastDue env loan = true then loan.shortfall else 0

def World.dustLoss (env : Env) (w : World) (id : Nat) (amount : Int) : Int :=
  match w.manager.getLoan env id with
  | .error _ => 0
  | .ok loan =>
    if loan.debt ≤ w.manager.readMinRepaymentAmount ∧ amount < loan.debt then loan.remaining else 0

def World.liquidationLoss (w : World) (id : Nat) : Int :=
  (w.manager.loans.lookup id).elim 0 Loan.shortfall

def LoanCall.writeOff (env : Env) (w : World) : LoanCall → Int
  | .repay _ loanId amount => w.dustLoss env loanId amount
  | .liquidate _ loanId => w.liquidationLoss loanId
  | .checkDefault loanId => w.defaultLoss env loanId
  | .checkDefaults loanIds => ∑ loanId ∈ loanIds.toFinset, w.defaultLoss env loanId
  | _ => 0

def LoanCall.payout (w : World) : LoanCall → Int
  | .approveLoan loanId => (w.manager.loans.lookup loanId).elim 0 Loan.amount
  | .refinanceLoan loanId newAmount _ =>
    (w.manager.loans.lookup loanId).elim 0 fun loan => max 0 (newAmount - loan.remaining)
  | _ => 0

lemma World.defaultLoss_eq {loan} (hl : w.manager.loans.lookup id = some loan)
    (ha : loan.status = .Approved) (hd : w.manager.isPastDue env loan = true) :
    w.defaultLoss env id = loan.shortfall := by
  simp [defaultLoss,hl,ha,hd]

variable {c : LoanCall} {old : Loan}

lemma World.dustLoss_eq {loan debt fee x} (ho : w.manager.loans.lookup id = some old)
    (hd : old.currentTotalDebt env w.manager.toSettings = .ok (loan,debt,fee)) :
    w.dustLoss env id x =
    if loan.debt ≤ w.manager.readMinRepaymentAmount ∧ x < loan.debt then loan.remaining else 0 := by
  have hg : w.manager.getLoan env id = .ok loan := by
    simp only [LoanManager.getLoan,eq_ok,LoanManager.readLoan_eq_ok,Prod.exists]
    exact ⟨old,ho,loan,debt,fee,hd,rfl⟩
  simp only [dustLoss,hg]

def LoanCall.loanIds (w : World) : LoanCall → Finset Nat
  | .requestLoan .. => { w.manager.loanCounter + 1 }
  | .approveLoan loanId | .repay _ loanId _ | .depositCollateral loanId _
  | .releaseCollateral loanId | .liquidate _ loanId | .cancelLoan _ loanId | .rejectLoan loanId _
  | .purgeLoan loanId | .refinanceLoan loanId _ _ | .extendLoan _ loanId _
  | .checkDefault loanId => { loanId }
  | .checkDefaults loanIds => loanIds.toFinset

structure LoanCall.Terms (env : Env) (w : World) (c : LoanCall) (id : Nat) (new : Option Loan)
    (x : Amounts) : Prop where
  mem_loanIds : id ∈ c.loanIds w
  inflow_nonneg : 0 ≤ x.inflow
  income : ∀ old loan, w.manager.loans.lookup id = some old → new = some loan →
    loan.income ≤ old.income + x.inflow ∨
      ∃ loanId newAmount newTerm, c = .refinanceLoan loanId newAmount newTerm
  loss_le : x.loss ≤ c.writeOff env w
  outflow_eq : x.outflow = c.payout w
  one_way : x.inflow = 0 ∨ x.outflow = 0

lemma LoanCall.Terms.of_change {new : Loan} {x : Amounts}
    (ho : w.manager.loans.lookup id = some old) (hd : id ∈ c.loanIds w) (hn : 0 ≤ x.inflow)
    (hc : new.income ≤ old.income + x.inflow) (hl : x.loss ≤ c.writeOff env w)
    (ht : x.outflow = c.payout w) (hy : x.inflow = 0 ∨ x.outflow = 0) :
    c.Terms env w id (some new) x := by
  refine ⟨hd,hn,?_,hl,ht,hy⟩
  intro old' loan ho' hw
  rw [ho] at ho'
  cases ho'
  cases hw
  exact .inl hc

lemma LoanCall.Terms.of_still {new : Loan} (ho : w.manager.loans.lookup id = some old)
    (hd : id ∈ c.loanIds w) (hn : new.income = old.income) (hl : c.writeOff env w = 0)
    (ht : c.payout w = 0) : c.Terms env w id (some new) ⟨0,0,0,0⟩ :=
  .of_change ho hd (le_refl 0) (by simp [hn]) hl.ge ht.symm (.inl rfl)

lemma LoanCall.posting (hw : w.Sound d) (he : env.External d)
    (hc : ∀ loanIds, c ≠ .checkDefaults loanIds) (h : c.exec d env w = .ok w') :
    ∃ id new x, Posting d id new x w w' ∧ c.Terms env w id new x := by
  cases c with
  | requestLoan =>
    simp only [exec,eq_ok,Prod.exists] at h
    obtain ⟨_,lid,h,rfl⟩ := h
    obtain ⟨hn,new,ht⟩ := posting_of_requestLoan hw he h
    have hm := ht.moves
    rw [hn] at hm
    cases hm with
    | request _ _ hid _ =>
      refine ⟨lid,some new,_,ht,Finset.mem_singleton.mpr hid,le_refl 0,?_,le_refl 0,rfl,.inl rfl⟩
      intro old loan ho
      rw [hn] at ho
      cases ho
  | approveLoan lid =>
    obtain ⟨old,new,ho,-,ht,hi,hf⟩ := posting_of_approveLoan hw h
    refine ⟨lid,some new,_,ht,.of_change ho (Finset.mem_singleton_self _) (le_refl 0)
      ?_ (le_refl 0) ?_ (.inl rfl)⟩
    · simp [Loan.income,hi,hf]
    · simp [payout,ho]
  | repay bor lid =>
    obtain ⟨old,acc,new,split,ho,hap,⟨fee,hb⟩,ha,hv,hi,hf,ht⟩ := posting_of_repay hw he h
    have hsm := hv.sum_eq
    have hp := hv.principal_nonneg
    have hin := hv.interest_nonneg
    have hfn := hv.lateFee_nonneg
    refine ⟨lid,some new,_,ht,.of_change ho (Finset.mem_singleton_self _) ?_ ?_ ?_ rfl (.inr rfl)⟩
    · simp only [repaymentAmounts]
      omega
    · simp only [repaymentAmounts,Loan.income,hi,hf]
      omega
    · simp only [repaymentAmounts,writeOff,World.dustLoss_eq ho hb]
      split <;> omega
  | depositCollateral lid =>
    obtain ⟨old,ho,ht⟩ := posting_of_depositCollateral hw h
    exact ⟨lid,_,_,ht,.of_still ho (Finset.mem_singleton_self _) rfl rfl rfl⟩
  | releaseCollateral lid =>
    obtain ⟨old,ho,ht⟩ := posting_of_releaseCollateral hw h
    exact ⟨lid,_,_,ht,.of_still ho (Finset.mem_singleton_self _) rfl rfl rfl⟩
  | liquidate liquidator lid =>
    obtain ⟨old,acc,split,ho,hap,ha,hv,ht⟩ := posting_of_liquidate hw he h
    have hsm := hv.sum_eq
    have hp := hv.principal_nonneg
    have hin := hv.interest_nonneg
    have hfn := hv.lateFee_nonneg
    have hi := hv.interest_le
    have hf := hv.lateFee_le
    have hinc : (acc.paid split).income = old.income + split.interest + split.lateFee := by
      simp only [Loan.income,Loan.paid,ha.interestPaid,ha.lateFeePaid]
      omega
    refine ⟨lid,_,_,ht,.of_change ho (Finset.mem_singleton_self _) ?_ ?_ ?_ rfl (.inr rfl)⟩
    · simp only [recoveryAmounts]
      omega
    · refine le_trans (le_of_eq hinc) ?_
      simp only [recoveryAmounts]
      omega
    · have hr := ha.remaining
      simp only [recoveryAmounts,writeOff,World.liquidationLoss,ho,Option.elim_some,
        Loan.shortfall,Loan.debt]
      omega
  | cancelLoan bor lid =>
    obtain ⟨old,ho,ht⟩ := posting_of_cancelLoan hw h
    exact ⟨lid,_,_,ht,.of_still ho (Finset.mem_singleton_self _) rfl rfl rfl⟩
  | rejectLoan lid =>
    obtain ⟨old,ho,ht⟩ := posting_of_rejectLoan hw h
    exact ⟨lid,_,_,ht,.of_still ho (Finset.mem_singleton_self _) rfl rfl rfl⟩
  | purgeLoan lid =>
    refine ⟨lid,none,_,posting_of_purgeLoan hw h,Finset.mem_singleton_self _,
      le_refl 0,?_,le_refl 0,rfl,.inl rfl⟩
    rintro old loan - ⟨⟩
  | refinanceLoan lid amt term =>
    obtain ⟨old,-,-,new,-,ho,-,-,-,-,-,-,-,ht⟩ := posting_of_refinanceLoan hw h
    refine ⟨lid,some new,_,ht,Finset.mem_singleton_self _,le_max_left 0 _,
      fun _ _ _ _ => .inr ⟨lid,amt,term,rfl⟩,le_refl 0,?_,?_⟩
    · simp [payout,ho]
    · simp only
      omega
  | extendLoan bor lid =>
    obtain ⟨old,new,fee,ho,h0,ht,hi,hf⟩ := posting_of_extendLoan hw h
    refine ⟨lid,some new,_,ht,
      .of_change ho (Finset.mem_singleton_self _) h0 ?_ (le_refl 0) rfl (.inr rfl)⟩
    simpa [Loan.income,hi,hf] using h0
  | checkDefault lid =>
    obtain ⟨old,ho,hap,hd,ht⟩ := posting_of_checkDefault hw h
    have hs := hw.loan lid old ho
    refine ⟨lid,_,_,ht,.of_change ho (Finset.mem_singleton_self _)
      hs.collateralAmount_nonneg ?_ ?_ rfl (.inr rfl)⟩
    · simpa [Loan.income,recoveryAmounts] using hs.collateralAmount_nonneg
    · exact le_of_eq (World.defaultLoss_eq ho hap hd).symm
  | checkDefaults loanIds => exact absurd rfl (hc loanIds)

lemma LoanCall.posting_or_batch (hw : w.Sound d) (he : env.External d)
    (h : c.exec d env w = .ok w') : (∃ id new x, Posting d id new x w w' ∧ c.Terms env w id new x) ∨
    ∃ ids n, c = .checkDefaults ids ∧ LoanManager.checkDefaults d env ids w = .ok (w',n) := by
  by_cases hc : ∀ loanIds, c ≠ .checkDefaults loanIds
  · exact .inl (posting hw he hc h)
  push Not at hc
  obtain ⟨ids,rfl⟩ := hc
  simp only [exec,eq_ok,Prod.exists] at h
  obtain ⟨_,n,h,rfl⟩ := h
  exact .inr ⟨ids,n,rfl,h⟩

lemma postings_of_checkDefaults {ids n} (hw : w.Sound d)
    (h : LoanManager.checkDefaults d env ids w = .ok (w',n)) : Postings d ids.toFinset w w' := by
  refine (checkDefaults_induction
    (I := fun rest u => (∀ id ∈ rest, id ∈ ids) ∧ Postings d ids.toFinset w u)
    ?_ ?_ hw h ⟨fun _ hd => hd,.nil w⟩).2
  · rintro id rest u ⟨hm,hs⟩
    exact ⟨fun j hj => hm j (mem_cons_of_mem id hj),hs⟩
  · rintro id rest u u' - ⟨_,-,-,-,hp⟩ ⟨hm,hs⟩
    exact ⟨fun j hj => hm j (mem_cons_of_mem id hj),
      hs.snoc (mem_toFinset.mpr (hm id mem_cons_self)) hp⟩

lemma LoanCall.postings (hw : w.Sound d) (he : env.External d) (h : c.exec d env w = .ok w') :
    Postings d (c.loanIds w) w w' := by
  rcases posting_or_batch hw he h with ⟨id,new,x,hp,ht⟩ | ⟨ids,n,rfl,hb⟩
  · exact .cons ht.mem_loanIds hp (.nil w')
  · exact postings_of_checkDefaults hw hb

end DukaPay
