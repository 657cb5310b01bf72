import DukaPay.Protocol.Steps

/-! One theorem for each entry point of the loan manager: a call that returns was a posting, with
the amounts that moved. -/
namespace DukaPay
open Contractlib LoanManager Loan
variable {d : Deployment} {env : Env} {w w' : World} {id : Nat}

lemma Posting.of_updates {old new δ said} {x : Amounts} (ho : w.manager.loans.lookup id = some old)
    (hu : LoanManager.Updates d id (some new) δ said w.manager w'.manager)
    (ht : new.status = old.status ∨ LoanStatus.Next old.status new.status)
    (hs : new.Sound d) (hw : δ = new.owed - old.owed)
    (hf : Flow d d.token x.inflow x.outflow (new.collateralAmount - old.collateralAmount)
      w.bank w'.bank)
    (he : Settled d.token x.gain x.loss w.pool w'.pool)
    (hb : x.gain - x.loss = x.inflow - x.outflow + (new.receivable - old.receivable))
    (hn : said = announcement id (some old) (some new)) : Posting d id (some new) x w w' where
  loans := hu.loans
  moves := by
    rw [ho]
    exact .change old new ht hu.loanCounter
  sound := by
    rintro loan ⟨⟩
    exact hs
  settings := hu.settings
  fits := hu.fits
  outstanding := by
    intro t
    rw [hu.outstanding,ho,hw]
    rfl
  flow := by
    rw [ho]
    exact hf
  settled := he
  booked := by
    rw [ho]
    exact hb
  announced := by rw [hu.announced,hn,ho]

lemma World.Sound.token_eq (hw : w.Sound d) {t} (h : w.manager.token = some t) : t = d.token :=
  Option.some.inj (h.symm.trans hw.token)

lemma World.Sound.lendingPool_eq (hw : w.Sound d) {pool}
    (h : w.manager.lendingPool = some pool) : pool = d.pool :=
  Option.some.inj (h.symm.trans hw.lendingPool)

variable {borrower : Address}

lemma posting_of_requestLoan {x term i} (hw : w.Sound d) (he : env.External d)
    (h : requestLoan d env borrower x term w = .ok (w',i)) : w.manager.loans.lookup i = none ∧
    ∃ new, Posting d i (some new) ⟨0,0,0,0⟩ w w' := by
  simp only [requestLoan,incrementBorrowerLoanCount,eq_ok,Prod.mk.injEq] at h
  obtain ⟨ha,-,-,hp,-,-,-,-,-,-,-,_,⟨-,rfl⟩,_,-,_,⟨_,⟨-,rfl⟩,rfl⟩,rfl,rfl⟩ := h
  have hn : w.manager.loans.lookup (w.manager.loanCounter + 1) = none := by
    cases hl : w.manager.loans.lookup (w.manager.loanCounter + 1) with
    | none => rfl
    | some =>
      have hle := hw.id_le _ _ hl
      omega
  refine ⟨hn,_,⟨Storage.writes_insert _ _ _,?_,?_,rfl,fun hm => hm,?_,?_,.refl _ _,?_,?_⟩⟩
  · rw [hn]
    exact .request _ rfl rfl rfl
  · rintro loan ⟨⟩
    refine ⟨⟨hp,le_refl 0,hp.le,le_refl 0,le_refl 0,le_refl 0,by norm_num,le_refl 0⟩,
      he.not_pool ha,he.not_manager ha,fun _ => rfl,?_,?_,fun _ => rfl⟩
    · rintro ⟨⟩
    · rintro ⟨⟩
  · intro t
    simp [hn,owed,publish,setLoan]
  · rw [hn]
    simpa using Flow.refl d d.token w.bank
  · simp [hn,receivable]
  · rw [hn]
    rfl

lemma posting_of_approveLoan (hw : w.Sound d) (h : approveLoan d env id w = .ok w') :
    ∃ old new, w.manager.loans.lookup id = some old ∧ old.status = .Pending ∧
    Posting d id (some new) ⟨0,0,0,old.amount⟩ w w' ∧
    new.interestPaid = old.interestPaid ∧ new.lateFeePaid = old.lateFeePaid := by
  simp only [approveLoan,acquireLock,eq_ok,readLoan_eq_ok] at h
  obtain ⟨_,-,-,-,-,old,ho,hd,_,-,_,ht,-,-,_,⟨-,rfl⟩,dueDate,-,fl,-,m,hm,_,hw1,rfl⟩ := h
  cases hw.token_eq ht
  obtain ⟨_,rfl,-,hv⟩ := World.of_disburse hw1
  have hs := hw.loan id old ho
  have hp := hs.unpaid hd
  have hu := LoanManager.Updates.adjust id hm
  -- the lock is no part of what is updated
  have hu' : LoanManager.Updates d id (w.manager.loans.lookup id) old.amount [] w.manager m :=
    ⟨hu.loans,hu.settings,hu.loanCounter,hu.fits,hu.outstanding,hu.announced⟩
  refine ⟨old,{ old with
    status := .Approved
    termLedgers := w.manager.readDefaultTerm
    dueDate := dueDate
    lastInterestLedger := env.sequence
    lastLateFeeLedger := fl },ho,hd,.of_updates ho
      ((hu'.trans (.setLoan d id _ m)).hear [(.Approved,id)] rfl rfl rfl rfl rfl) ?_ ?_ ?_ ?_
      (.refl _ _) ?_ ?_,rfl,rfl⟩
  · rw [hd]
    exact .inr .approve
  · refine ⟨{ hs.toInRange with collateralAmount_nonneg := hs.collateralAmount_nonneg },
    hs.borrower_pool,hs.borrower_manager,?_,fun _ => ?_,?_,?_⟩
    · rintro ⟨⟩
    · have := hs.amount_pos
      have := hs.accruedInterest_nonneg
      have := hs.accruedLateFee_nonneg
      simp only [debt,remaining]
      omega
    · rintro ⟨⟩
    · rintro ⟨-,hn⟩
      exact absurd rfl hn
  · simp [owed,hd]
  · simpa using Flow.paidOut hv (.inl rfl) hs.borrower_pool hs.borrower_manager
  · simp [receivable,remaining,hd,hp]
  · simp [announcement,hd]

lemma of_returnCollateral {c} (h : returnCollateral d env id borrower c w = .ok w')
    (ht : w.manager.token = some d.token) (h0 : 0 ≤ c) (hp : borrower ≠ d.pool)
    (hm : borrower ≠ d.manager) : w'.pool = w.pool ∧ Flow d d.token 0 0 (-c) w.bank w'.bank ∧
    (∃ events, w'.manager = { w.manager with events := events }) ∧
    w'.manager.announced = w.manager.announced := by
  unfold returnCollateral at h
  split at h
  · simp only [eq_ok,ht,Option.some.injEq,exists_eq_left'] at h
    obtain ⟨_,hw1,rfl⟩ := h
    obtain ⟨_,rfl,hv⟩ := World.of_transfer hw1
    exact ⟨rfl,.released hv hp hm,⟨_,rfl⟩,rfl⟩
  · next hz =>
    cases h
    have hr : c = 0 := by omega
    refine ⟨rfl,?_,⟨w.manager.events,rfl⟩,rfl⟩
    rw [hr]
    exact .refl d d.token w.bank

lemma Loan.Sound.closed {loan : Loan} (hr : loan.InRange) (hp : loan.borrower ≠ d.pool)
    (hm : loan.borrower ≠ d.manager) (hs : loan.status.Terminal) (hc : loan.collateralAmount = 0)
    (hrp : loan.status = .Repaid →
    loan.principalPaid = loan.amount ∧ loan.accruedInterest = 0 ∧ loan.accruedLateFee = 0) :
    loan.Sound d :=
  ⟨hr,hp,hm,fun h => absurd h hs.1,fun h => absurd h hs.2,hrp,fun _ => hc⟩

lemma posting_of_closed {old status w1} (hw : w.Sound d)
    (ho : w.manager.loans.lookup id = some old) (hd : old.status = .Pending)
    (ht : status = .Cancelled ∨ status = .Rejected)
    (h1 : returnCollateral d env id old.borrower old.collateralAmount { w with
    manager := w.manager.setLoan id { old with status := status, collateralAmount := 0 } } = .ok w1)
    (hl : w'.toPoolWorld = w1.toPoolWorld) {e : LoanEvent}
    (hn : w'.manager = w1.manager.publish env e) (he : e.announced = none) :
    Posting d id (some { old with status := status, collateralAmount := 0 }) ⟨0,0,0,0⟩ w w' := by
  have hs := hw.loan id old ho
  obtain ⟨hp1,hf,⟨_,hm1⟩,hq⟩ := of_returnCollateral h1 hw.token hs.collateralAmount_nonneg
    hs.borrower_pool hs.borrower_manager
  have hr : status.Terminal := by
    rcases ht with rfl | rfl <;> decide
  have hno : status ≠ .Approved := hr.2
  refine .of_updates ho ((LoanManager.Updates.setLoan d id _ w.manager).congr ?_ ?_ ?_ ?_ ?_) ?_
    (.closed { hs.toInRange with collateralAmount_nonneg := le_refl 0 } hs.borrower_pool
      hs.borrower_manager hr rfl ?_)
    ?_ ?_ ?_ ?_ ?_
  iterate 4 rw [hn,hm1]; rfl
  · rw [hn,← hq]
    exact List.filterMap_cons_none he
  · rw [hd]
    rcases ht with rfl | rfl
    · exact .inr .cancel
    · exact .inr .reject
  · rintro rfl
    rcases ht with hc | hc <;> cases hc
  · simp [owed,hd,hno]
  · rw [hl]
    simpa using hf
  · rw [hl,hp1]
    exact .refl _ _
  · simp [receivable,hd,hno]
  · rcases ht with rfl | rfl <;> simp [announcement]

lemma posting_of_cancelLoan (hw : w.Sound d) (h : cancelLoan d env borrower id w = .ok w') :
    ∃ old, w.manager.loans.lookup id = some old ∧
    Posting d id (some { old with status := .Cancelled, collateralAmount := 0 }) ⟨0,0,0,0⟩
        w w' := by
  simp only [cancelLoan,eq_ok,readLoan_eq_ok] at h
  obtain ⟨-,old,ho,rfl,hp,_,hw1,rfl⟩ := h
  exact ⟨old,ho,posting_of_closed hw ho hp (.inl rfl) hw1 rfl rfl rfl⟩

lemma posting_of_rejectLoan {rsn} (hw : w.Sound d) (h : rejectLoan d env id rsn w = .ok w') : ∃ old,
    w.manager.loans.lookup id = some old ∧
    Posting d id (some { old with status := .Rejected, collateralAmount := 0 }) ⟨0,0,0,0⟩ w w' := by
  simp only [rejectLoan,eq_ok,readLoan_eq_ok] at h
  obtain ⟨_,-,-,old,ho,hp,_,hw1,rfl⟩ := h
  exact ⟨old,ho,posting_of_closed hw ho hp (.inr rfl) hw1 rfl rfl rfl⟩

lemma eq_of_uncountClosed (loan) (m : LoanManager) :
    ∃ counts, m.uncountClosed loan = { m with borrowerLoanCount := counts } := by
  unfold uncountClosed
  split
  · exact ⟨_,rfl⟩
  · exact ⟨m.borrowerLoanCount,rfl⟩

lemma posting_of_purgeLoan (hw : w.Sound d) (h : purgeLoan d env id w = .ok w') :
    Posting d id none ⟨0,0,0,0⟩ w w' := by
  simp only [purgeLoan,releaseResidual,eq_ok,readLoan_eq_ok] at h
  obtain ⟨_,-,-,old,ho,hp,_,hw1,rfl⟩ := h
  have hs := hw.loan id old ho
  have ht : old.status.Terminal := by
    rcases hp with hc | hc | hc <;> rw [hc] <;> decide
  have hz := hs.released ht
  rw [if_neg (by omega)] at hw1
  cases hw1
  obtain ⟨_,hn⟩ := eq_of_uncountClosed old { w.manager with loans := w.manager.loans.erase id }
  rw [hn]
  refine ⟨Storage.writes_erase id _,?_,(fun _ hl => by cases hl),rfl,fun hm => hm,fun t => ?_,
    ?_,.refl _ _,?_,?_⟩
  · rw [ho]
    exact .purge old hp rfl
  · simp [ho,owed,ht.2,publish]
  · simpa [ho,hz] using Flow.refl d d.token w.bank
  · simp [ho,receivable,ht.2]
  · rw [ho]
    rfl

lemma Loan.Sound.approved {loan : Loan} (hr : loan.InRange) (hp : loan.borrower ≠ d.pool)
    (hm : loan.borrower ≠ d.manager) (hs : loan.status = .Approved) (hd : 0 < loan.debt) :
    loan.Sound d := by
  refine ⟨hr,hp,hm,fun h => ?_,fun _ => hd,fun h => ?_,fun h => absurd hs h.2⟩
  · rw [hs] at h
    cases h
  · rw [hs] at h
    cases h

lemma posting_of_depositCollateral {x} (hw : w.Sound d)
    (h : depositCollateral d env id x w = .ok w') : ∃ old, w.manager.loans.lookup id = some old ∧
    Posting d id (some { old with collateralAmount := old.collateralAmount + x })
        ⟨0,0,0,0⟩ w w' := by
  simp only [depositCollateral,eq_ok,readLoan_eq_ok] at h
  obtain ⟨-,_,old,ho,ha,-,-,-,-,_,ht,_,⟨-,rfl⟩,_,hw1,rfl⟩ := h
  cases hw.token_eq ht
  obtain ⟨_,rfl,hm⟩ := World.of_transfer hw1
  have hs := hw.loan id old ho
  have hc := hs.collateralAmount_nonneg
  refine ⟨old,ho,.of_updates ho
    ((LoanManager.Updates.setLoan d id _ w.manager).congr rfl rfl rfl rfl rfl) (.inl rfl)
    (.approved { hs.toInRange with collateralAmount_nonneg := ?_ } hs.borrower_pool
      hs.borrower_manager ha
      (hs.debt_pos ha)) ?_ ?_ (.refl _ _) ?_ ?_⟩
  · show 0 ≤ old.collateralAmount + x
    omega
  · simp [owed]
  · simpa using Flow.pledged hm hs.borrower_pool hs.borrower_manager
  · simp [receivable,remaining]
  · simp [announcement]

lemma posting_of_releaseCollateral (hw : w.Sound d) (h : releaseCollateral d env id w = .ok w') :
    ∃ old, w.manager.loans.lookup id = some old ∧
    Posting d id (some { old with collateralAmount := 0 }) ⟨0,0,0,0⟩ w w' := by
  simp only [releaseCollateral,eq_ok,readLoan_eq_ok] at h
  obtain ⟨old,ho,hr,_,hw1,rfl⟩ := h
  have hs := hw.loan id old ho
  obtain ⟨hp,hf,hu⟩ := World.of_releaseCollateralInternal hw1 hw.token ho
    hs.collateralAmount_nonneg hs.borrower_pool hs.borrower_manager
  refine ⟨old,ho,.of_updates ho (hu.congr rfl rfl rfl rfl rfl) (.inl rfl)
    (.closed { hs.toInRange with collateralAmount_nonneg := le_refl 0 } hs.borrower_pool
      hs.borrower_manager ?_ rfl
      fun _ => hs.paid_off hr) ?_ ?_ ?_ ?_ ?_⟩
  · rw [hr]
    decide
  · simp [owed]
  · simpa using hf
  · rw [hp]
    exact .refl _ _
  · simp [receivable,remaining]
  · simp [announcement]

lemma of_collectExtensionFee {fee} (hw : w.Sound d) (h0 : 0 ≤ fee) (hp : borrower ≠ d.pool)
    (hm : borrower ≠ d.manager) (h : collectExtensionFee d env borrower fee w = .ok w') :
    w'.manager = w.manager ∧ Flow d d.token fee 0 0 w.bank w'.bank ∧
    Settled d.token fee 0 w.pool w'.pool := by
  unfold collectExtensionFee at h
  split at h
  · simp only [eq_ok,hw.token,hw.lendingPool,Option.some.injEq,exists_eq_left'] at h
    obtain ⟨_,hw1,h⟩ := h
    obtain ⟨_,rfl,hv⟩ := World.of_transfer hw1
    obtain ⟨_,rfl,-,-,hs⟩ := World.of_recordLoanYield h
    exact ⟨rfl,.paidIn hv (.inr rfl) hp hm,.of_gain hs⟩
  cases h
  have hz : fee = 0 := by omega
  rw [hz]
  exact ⟨rfl,.refl _ _ _,.refl _ _⟩

lemma extensionFee_nonneg {pr fee} (h0 : 0 ≤ pr) (h : extensionFee pr = .ok fee) : 0 ≤ fee := by
  simp only [extensionFee,eq_ok,okOr_eq_ok] at h
  obtain ⟨_,⟨-,rfl⟩,h⟩ := h
  rw [Money.roundDiv_floor (by decide) h]
  exact Int.ediv_nonneg (mul_nonneg h0 (by decide)) (by decide)

lemma posting_of_extendLoan {extraLedgers} (hw : w.Sound d)
    (h : extendLoan d env borrower id extraLedgers w = .ok w') : ∃ (old new : Loan) (fee : Int),
    w.manager.loans.lookup id = some old ∧ 0 ≤ fee ∧ Posting d id (some new) ⟨fee,0,fee,0⟩ w w' ∧
    new.interestPaid = old.interestPaid ∧ new.lateFeePaid = old.lateFeePaid := by
  simp only [extendLoan,eq_ok,readLoan_eq_ok] at h
  obtain ⟨-,-,-,old,ho,rfl,ha,_,-,-,-,_,hp,fee,hf,w1,hw1,_,⟨-,rfl⟩,_,⟨-,rfl⟩,rfl⟩ := h
  have hs := hw.loan id old ho
  cases eq_of_remainingPrincipal hp
  have h0 := extensionFee_nonneg hs.remaining_nonneg hf
  obtain ⟨hm,hfw,ht⟩ := of_collectExtensionFee hw h0 hs.borrower_pool hs.borrower_manager hw1
  obtain ⟨⟨_,_⟩,m⟩ := w1
  obtain rfl : m = w.manager := hm
  refine ⟨old,{ old with
    dueDate := old.dueDate + extraLedgers
    extensionCount := old.extensionCount + 1 },fee,ho,h0,.of_updates ho
    ((LoanManager.Updates.setLoan d id _ w.manager).congr rfl rfl rfl rfl rfl) (.inl rfl)
    (.approved { hs.toInRange with collateralAmount_nonneg := hs.collateralAmount_nonneg }
      hs.borrower_pool hs.borrower_manager
      ha (hs.debt_pos ha)) ?_ ?_ ht ?_ ?_,rfl,rfl⟩
  · simp [owed]
  · simpa using hfw
  · simp [receivable,remaining]
  · simp [announcement]

end DukaPay
