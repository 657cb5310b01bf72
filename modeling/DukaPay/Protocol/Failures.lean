import DukaPay.Protocol.Accounts

/-! Two panics of the contracts report that the accounts are out of balance: the outstanding total
would become negative, or a loss exceeds the managed assets. -/
namespace DukaPay
open Contractlib LoanManager LendingPool

class Fault.Imbalance (e : Fault) : Prop where
  panic : ∀ msg, msg ≠ "total outstanding underflow" → msg ≠ "loan loss exceeds managed assets" →
    Fault.panic msg ≠ e
  pool : ∀ x, Fault.pool x ≠ e
  loan : ∀ x, Fault.loan x ≠ e
  unauthorized : ∀ a, Fault.unauthorized a ≠ e
  token : Fault.token ≠ e
  foreign : Fault.foreign ≠ e

attribute [simp] Fault.Imbalance.panic Fault.Imbalance.pool Fault.Imbalance.loan
  Fault.Imbalance.unauthorized Fault.Imbalance.token Fault.Imbalance.foreign

instance : Fault.Imbalance (.panic "total outstanding underflow") := by
  constructor <;> simp_all

instance : Fault.Imbalance (.panic "loan loss exceeds managed assets") := by
  constructor <;> simp_all

@[simp] lemma never_expect {e : Fault} {α : Type} {o : Option α} {msg : String}
    (h : .panic msg ≠ e) : Never e (expect o msg) :=
  never_orFail h

lemma Bank.never_transfer {e env x} {b : Bank}
    (ha : ∀ a, .unauthorized a ≠ e) (ht : .token ≠ e) : Never e (b.transfer env x) := by
  simp only [transfer,never_bind]
  refine ⟨never_ensure (ha _),fun _ _ => ⟨never_ensure ht,fun _ _ => ?_⟩⟩
  split
  · exact never_pure e _
  · intro h
    exact ht (Except.error.inj h)

section
variable {e : Fault} [e.Imbalance] {d : Deployment} {env : Env} {w : World} {m : LoanManager}
  {s : Settings} {loan : Loan} {token src dst recipient : Address} {amount : Int} {id : Nat}

@[simp] lemma never_requireAuth {a} : Never e (env.requireAuth a) :=
  never_ensure (Fault.Imbalance.unauthorized a)

@[simp] lemma never_remainingPrincipal : Never e loan.remainingPrincipal := by
  simp [Loan.remainingPrincipal]

@[simp] lemma never_totalDebt : Never e loan.totalDebt := by
  simp [Loan.totalDebt]

@[simp] lemma never_accrueInterest : Never e (loan.accrueInterest env) := by
  simp [Loan.accrueInterest,Loan.totalInterest,Loan.wholeAndResidual]

@[simp] lemma never_accrueLateFee : Never e (loan.accrueLateFee env s) := by
  simp [Loan.accrueLateFee,Loan.chargedFee,Loan.addLateFee,Loan.incrementalFee]

@[simp] lemma never_currentTotalDebt : Never e (loan.currentTotalDebt env s) := by
  simp [Loan.currentTotalDebt]

@[simp] lemma never_allocateUnits {dues : Fin 3 → Int} {n : Nat} {a : Loan.Allocation} :
    Never e (Loan.allocateUnits dues n a) := by
  induction n generalizing a with
  | zero => simp [Loan.allocateUnits]
  | succ n ih => simp [Loan.allocateUnits,ih]

@[simp] lemma never_proportionalRepaymentSplit :
    Never e (loan.proportionalRepaymentSplit amount) := by
  simp [Loan.proportionalRepaymentSplit,Loan.allocateShare]

@[simp] lemma never_applySplit {split : Loan.Split} : Never e (loan.applySplit split) := by
  simp [Loan.applySplit]

@[simp] lemma never_applyDebtRecovery : Never e (loan.applyDebtRecovery amount) := by
  simp [Loan.applyDebtRecovery]

@[simp] lemma never_assertCircuitOk {fnSym} : Never e (m.assertCircuitOk d env fnSym) := by
  unfold LoanManager.assertCircuitOk
  split <;> simp

@[simp] lemma never_assertPoolNotPaused : Never e (assertPoolNotPaused d w) := by
  unfold assertPoolNotPaused
  split <;> simp

@[simp] lemma never_assertNftNotPaused : Never e (m.assertNftNotPaused env) := by
  unfold assertNftNotPaused
  split <;> simp

@[simp] lemma never_requireNotPaused : Never e (requireNotPaused d env w) := by
  simp [requireNotPaused]

@[simp] lemma never_acquireLock : Never e m.acquireLock := by
  simp [LoanManager.acquireLock]

@[simp] lemma never_readAdmin : Never e s.readAdmin := by
  simp [Settings.readAdmin]

@[simp] lemma never_readNftContract : Never e s.readNftContract := by
  simp [Settings.readNftContract]

@[simp] lemma never_readLendingPool : Never e s.readLendingPool := by
  simp [Settings.readLendingPool]

@[simp] lemma never_readLoan : Never e (m.readLoan id) := by
  simp [readLoan]

@[simp] lemma never_defaultEnds : Never e (m.defaultEnds loan) := by
  simp [defaultEnds]

variable {pool borrower : Address} {principal recovered newAmount : Int} {completed : Bool}

@[simp] lemma never_computeInterestRate {score} :
    Never e (s.computeInterestRate env borrower amount score) := by
  unfold Settings.computeInterestRate
  split <;> simp

@[simp] lemma never_collateralValueUnits : Never e (s.collateralValueUnits env amount) := by
  unfold Settings.collateralValueUnits
  split
  · simp
  · split <;> simp

@[simp] lemma never_isCollateralRatioBelowThreshold {debt : Int} {thr : Nat} :
    Never e (isCollateralRatioBelowThreshold amount debt thr) := by
  simp [isCollateralRatioBelowThreshold]

@[simp] lemma never_configuredBonus : Never e (m.configuredBonus amount) := by
  simp [configuredBonus]

@[simp] lemma never_liquidationPayout {debt bon : Int} :
    Never e (liquidationPayout amount debt bon) := by
  simp [liquidationPayout]

@[simp] lemma never_updateScore {late} : Never e (m.updateScore env borrower amount late) := by
  simp [updateScore]

@[simp] lemma never_settleAccrued : Never e (settleAccrued loan) := by
  simp [settleAccrued]

@[simp] lemma never_bank_transfer {x} {b : Bank} : Never e (b.transfer env x) :=
  Bank.never_transfer Fault.Imbalance.unauthorized Fault.Imbalance.token

@[simp] lemma never_transfer : Never e (w.transfer d env token src dst amount) := by
  simp [World.transfer]

@[simp] lemma never_transferPositive : Never e (w.transferPositive d env token src dst amount) := by
  simp [World.transferPositive]

@[simp] lemma never_recordLoanYield : Never e (w.recordLoanYield d env pool token amount) := by
  simp [World.recordLoanYield,recordLoanYield,requireLoanManager,yieldDistributed]

@[simp] lemma never_pool_assertCircuitOk {self fnSym} {p : LendingPool} :
    Never e (p.assertCircuitOk self env fnSym) := by
  unfold LendingPool.assertCircuitOk
  split <;> simp

@[simp] lemma never_disburse : Never e (w.disburse d env pool recipient token amount) := by
  simp [World.disburse,disburse,assertNotPaused]

@[simp] lemma never_releaseCollateralInternal :
    Never e (w.releaseCollateralInternal d env id recipient) := by
  simp [World.releaseCollateralInternal]

@[simp] lemma never_seizeCollateralInternal : Never e (w.seizeCollateralInternal d env id) := by
  simp [World.seizeCollateralInternal]

@[simp] lemma never_releaseRepaid :
    Never e (releaseRepaid d env completed borrower id amount w) := by
  simp [releaseRepaid]

lemma never_adjustTotalOutstanding {δ : Int} (h : 0 ≤ m.totalOutstanding token + δ) :
    Never e (m.adjustTotalOutstanding token δ) := by
  simp only [adjustTotalOutstanding,never_bind,never_ite,expect_eq_ok,IntType.checkedAdd_eq_some]
  refine ⟨fun _ => never_pure e m,fun _ => ⟨by simp,?_⟩⟩
  rintro _ ⟨-,rfl⟩
  exact ⟨never_ensure_of h,fun _ _ => never_pure e _⟩

lemma never_closeOutstanding (h : loan.amount ≤ m.totalOutstanding token) :
    Never e (m.closeOutstanding token loan) := by
  simp only [closeOutstanding,never_bind,expect_eq_ok,IntType.checkedNeg]
  refine ⟨by simp,fun dl hd => never_adjustTotalOutstanding ?_⟩
  obtain ⟨-,rfl⟩ := IntType.check_eq_some.mp hd
  omega

lemma never_recordLoanLoss (hf : w.pool.toBooks.Fits)
    (h : e = .panic "loan loss exceeds managed assets" → amount ≤ w.pool.totalManagedAssets token) :
    Never e (w.recordLoanLoss d env pool token amount) := by
  simp only [World.recordLoanLoss,recordLoanLoss,requireLoanManager,
    never_bind,never_ite,ensure_eq_ok]
  refine ⟨by simp,fun _ _ => ⟨⟨⟨by simp,fun _ _ => by simp⟩,fun _ _ => ⟨by simp,?_⟩⟩,
    fun _ _ => never_pure e _⟩⟩
  refine fun _ h0 => ⟨fun _ => never_pure e _,fun _ => ⟨?_,fun _ _ => never_pure e _⟩⟩
  by_cases he : e = .panic "loan loss exceeds managed assets"
  · -- the difference is representable, since the managed assets are
    have hl := h he
    have hh := (hf token).2
    have hd : i128.Fits (w.pool.totalManagedAssets token - amount) :=
      ⟨le_trans (by decide) (Int.sub_nonneg_of_le hl),by omega⟩
    refine never_orFail_of (a := w.pool.totalManagedAssets token - amount) ?_
    simp [IntType.checkedSub,IntType.check_of_fits hd,hl]
  · exact never_expect (Ne.symm he)

lemma never_recordPoolRecovery (hf : w.pool.toBooks.Fits)
    (h : e = .panic "loan loss exceeds managed assets" →
    principal - recovered ≤ w.pool.totalManagedAssets token) :
    Never e (w.recordPoolRecovery d env token principal recovered) := by
  simp only [World.recordPoolRecovery,never_bind,never_ite,expect_eq_ok,IntType.checkedSub_eq_some]
  refine ⟨by simp,fun pool _ => ⟨fun _ => by simp,fun _ => ⟨fun _ => ⟨by simp,?_⟩,
    fun _ => never_pure e w⟩⟩⟩
  rintro _ ⟨-,rfl⟩
  exact never_recordLoanLoss hf h

lemma never_movePrincipal (hp : 0 < loan.amount)
    (h : loan.amount ≤ w.manager.totalOutstanding token) (hf : w.manager.Fits) :
    Never e (movePrincipal d env pool token newAmount principal loan w) := by
  have hh := (hf token).2
  have hd : i128.Fits (w.manager.totalOutstanding token - loan.amount) :=
    ⟨le_trans (by decide) (Int.sub_nonneg_of_le h),by omega⟩
  simp only [movePrincipal,returnExcessCollateral,never_ite,never_bind,never_expect,never_ensure,
    never_disburse,never_transfer,never_okOr,never_pure,Fault.Imbalance.loan,Fault.Imbalance.panic,
    ne_eq,String.reduceEq,not_false_eq_true,implies_true,and_true,true_and]
  refine fun _ _ _ => never_orFail_of (a := w.manager.totalOutstanding token - loan.amount) ?_
  simp [IntType.checkedSub,IntType.check_of_fits hd]

lemma never_closeRepaid {dust} (h : loan.amount ≤ m.totalOutstanding token) :
    Never e (m.closeRepaid token completed (forgiveDust dust loan).1) := by
  have ha : (forgiveDust dust loan).1.amount = loan.amount := by
    unfold forgiveDust
    split <;> rfl
  rw [← ha] at h
  simp only [closeRepaid,never_ite,never_bind,never_pure,implies_true,and_true]
  exact fun _ => never_closeOutstanding h

lemma never_recordForgiven {forgiven} (hf : w.pool.toBooks.Fits)
    (h : e = .panic "loan loss exceeds managed assets" →
    principal - recovered ≤ w.pool.totalManagedAssets token) :
    Never e (recordForgiven d env forgiven token principal recovered w) := by
  simp only [recordForgiven,never_ite,never_pure,implies_true,and_true]
  exact fun _ => never_recordPoolRecovery hf h

lemma never_approveLoan (hw : w.InOrder d) : Never e (LoanManager.approveLoan d env id w) := by
  simp only [LoanManager.approveLoan,never_bind,never_readAdmin,never_requireAuth,
    never_requireNotPaused,never_assertCircuitOk,never_readLoan,never_acquireLock,never_ensure,
    never_expect,never_disburse,never_pure,Fault.Imbalance.loan,Fault.Imbalance.foreign,
    Fault.Imbalance.panic,ne_eq,String.reduceEq,not_false_eq_true,implies_true,and_true,
    true_and,LoanManager.readLoan_eq_ok,expect_eq_ok,ensure_eq_ok,forall_const]
  intro _ _ _ _ _ _ _ _ loan hl _ _ _ token ht _ _ m hm _ _ _ _
  cases hw.sound.token_eq ht
  apply never_adjustTotalOutstanding
  have h0 := hw.outstanding_nonneg
  have hp := (hw.sound.loan id loan hl).amount_pos
  simp only [LoanManager.acquireLock,eq_ok] at hm
  obtain ⟨-,rfl⟩ := hm
  show 0 ≤ w.manager.totalOutstanding d.token + loan.amount
  omega

section
variable (hw : w.InOrder d)
  (hcash : e = .panic "loan loss exceeds managed assets" → 0 ≤ w.cash d d.token)

include hw hcash

lemma never_markDefaulted (hl : w.manager.loans.lookup id = some loan)
    (ha : loan.status = .Approved) : Never e (markDefaulted d env id loan w) := by
  simp only [markDefaulted,never_bind,never_remainingPrincipal,never_expect,
    never_seizeCollateralInternal,never_readNftContract,never_ensure,never_pure,
    Fault.Imbalance.foreign,Fault.Imbalance.panic,ne_eq,String.reduceEq,not_false_eq_true,
    implies_true,and_true,true_and,expect_eq_ok]
  intro principal hp token ht
  cases Loan.eq_of_remainingPrincipal hp
  cases hw.sound.token_eq ht
  have hs := hw.sound.loan id loan hl
  have hn := hw.amount_le hl ha
  refine ⟨never_closeOutstanding hn,fun m hm w1 hw1 => ?_⟩
  have hpl := World.pool_of_seizeCollateralInternal hw1
  apply never_recordPoolRecovery
  · rw [hpl]
    exact hw.sound.managed_fits
  · intro he
    rw [hpl]
    have hle := hw.remaining_le (hcash he) hl ha
    have hc := hs.collateralAmount_nonneg
    show _ ≤ w.pool.totalManagedAssets d.token
    omega

lemma never_checkDefault : Never e (checkDefault d env id w) := by
  simp only [checkDefault,never_bind,never_readAdmin,never_requireAuth,
    never_requireNotPaused,never_readLoan,never_ensure,never_defaultEnds,Fault.Imbalance.loan,
    ne_eq,not_false_eq_true,true_and,readLoan_eq_ok,ensure_eq_ok]
  intro _ _ _ _ _ _ loan hl _ ha _ _ _ _
  exact never_markDefaulted hw hcash hl ha

lemma never_liquidate {liquidator : Address} : Never e (liquidate d env liquidator id w) := by
  simp only [liquidate,never_bind,never_requireAuth,never_requireNotPaused,never_readLoan,
    never_ensure,never_currentTotalDebt,never_collateralValueUnits,
    never_isCollateralRatioBelowThreshold,never_configuredBonus,never_liquidationPayout,
    never_remainingPrincipal,never_applyDebtRecovery,never_expect,never_transferPositive,never_pure,
    Fault.Imbalance.loan,Fault.Imbalance.panic,ne_eq,String.reduceEq,not_false_eq_true,implies_true,
    and_true,true_and,readLoan_eq_ok,expect_eq_ok,ensure_eq_ok,Prod.forall]
  intro _ _ _ _ old ho _ hap acc debt _ hc _ _ _ _ _ _ bon hb pay hy principal hp loan hl token ht
  cases Loan.eq_of_remainingPrincipal hp
  cases hw.sound.token_eq ht
  have hs := hw.sound.loan id old ho
  obtain ⟨ha,rfl,-⟩ := Loan.of_currentTotalDebt hs.toInRange hap hc
  have hr := ha.inRange hs.toInRange
  have hn : loan.amount ≤ w.manager.totalOutstanding d.token := by
    rw [Loan.amount_of_applyDebtRecovery hl,ha.amount]
    exact hw.amount_le ho hap
  refine ⟨never_closeOutstanding hn,fun m _ pool _ w1 hw1 => ?_⟩
  obtain ⟨_,-,-,-⟩ := of_liquidationPayout (configuredBonus_nonneg hr.collateralAmount_nonneg hb) hy
  have hcl := hr.collateralAmount_nonneg
  have hd := hr.debt_nonneg
  obtain ⟨_,rfl,-⟩ := World.of_transferPositive (by omega) hw1
  refine never_recordPoolRecovery hw.sound.managed_fits fun he => ?_
  have hle := hw.remaining_le (hcash he) ho hap
  have hm := ha.remaining
  show acc.remaining - pay.debtRepaid ≤ w.pool.totalManagedAssets d.token
  omega

lemma never_repay {borrower : Address} : Never e (repay d env borrower id amount w) := by
  simp only [repay,never_bind,never_requireAuth,never_requireNotPaused,never_assertCircuitOk,
    never_readLoan,never_ensure,never_defaultEnds,never_currentTotalDebt,never_expect,
    never_remainingPrincipal,never_proportionalRepaymentSplit,never_applySplit,never_transfer,
    never_recordLoanYield,never_releaseRepaid,never_updateScore,never_pure,Fault.Imbalance.loan,
    Fault.Imbalance.panic,ne_eq,String.reduceEq,not_false_eq_true,implies_true,and_true,true_and,
    readLoan_eq_ok,expect_eq_ok,ensure_eq_ok,Prod.forall]
  intro _ _ _ _ _ _ _ hps old ho _ _ _ hap _ _ _ _ acc debt _ hc _ hl _ _ token
    ht _ _ principal hp split hsp paid hd _ _
  cases Loan.eq_of_remainingPrincipal hp
  cases Loan.eq_of_applySplit hd
  cases hw.sound.token_eq ht
  have hs := hw.sound.loan id old ho
  obtain ⟨ha,rfl,-⟩ := Loan.of_currentTotalDebt hs.toInRange hap hc
  have hv := Loan.covers_of_proportionalRepaymentSplit (ha.inRange hs.toInRange) hps hl hsp
  have hn := hw.amount_le ho hap
  rw [← ha.amount] at hn
  refine ⟨never_closeRepaid hn,fun _ _ _ w1 hw1 _ _ w2 hw2 => ?_⟩
  obtain ⟨_,rfl,-⟩ := World.of_transfer hw1
  obtain ⟨q,rfl,-,_,hq⟩ := World.of_recordLoanYield hw2
  refine never_recordForgiven (hq.fits hw.sound.managed_fits) fun he => ?_
  -- the yield that was just booked only adds to the managed assets
  have hm := hq.managed_gainEntry d.token
  have hle' := hw.remaining_le (hcash he) ho hap
  have hr := ha.remaining
  have hp0 := hv.principal_nonneg
  rw [if_pos rfl] at hm
  show acc.remaining - split.principal ≤ q.totalManagedAssets d.token
  rw [hm]
  show _ ≤ w.pool.totalManagedAssets d.token + _
  omega

end

lemma never_refinanceLoan {newTerm : Nat} (hw : w.InOrder d) :
    Never e (refinanceLoan d env id newAmount newTerm w) := by
  simp only [refinanceLoan,never_bind,never_requireNotPaused,never_readAdmin,
    never_requireAuth,never_readLoan,never_ensure,never_orFail,never_defaultEnds,
    never_accrueInterest,never_accrueLateFee,never_settleAccrued,never_remainingPrincipal,
    never_expect,never_computeInterestRate,never_pure,Fault.Imbalance.loan,
    Fault.Imbalance.panic,ne_eq,String.reduceEq,not_false_eq_true,implies_true,and_true,
    true_and,readLoan_eq_ok,expect_eq_ok,ensure_eq_ok,Prod.forall]
  intro _ _ _ _ _ _ old ho _ _ _ hap _ _ _ _ _ hnw _ _ _ _ _ _ _ _ _ _ accrued hn
    accrued' _ hf settled ht principal hp token hk pool hl
  cases hw.sound.token_eq hk
  cases hw.sound.lendingPool_eq hl
  have hs := hw.sound.loan id old ho
  obtain ⟨ha1,-,-⟩ := Loan.of_accrueInterest hs.toInRange hap hn
  have ha := ha1.trans (Loan.of_accrueLateFee (ha1.inRange hs.toInRange) hf).1
  have hc : accrued'.amount ≤ w.manager.totalOutstanding d.token := by
    rw [ha.amount]
    exact hw.amount_le ho hap
  have hps := (ha.inRange hs.toInRange).amount_pos
  simp only [settleAccrued,eq_ok] at ht
  obtain ⟨_,⟨-,rfl⟩,_,⟨-,rfl⟩,rfl⟩ := ht
  refine ⟨never_movePrincipal hps hc hw.sound.outstanding_fits,fun w1 moved hm dl hd => ?_⟩
  obtain ⟨-,rfl⟩ := IntType.checkedSub_eq_some.mp hd
  obtain ⟨_,rfl,rfl,-⟩ := of_movePrincipal hm
    (ha.inRange hs.toInRange).collateralAmount_nonneg (ha.borrower ▸ hs.borrower_pool)
    (ha.borrower ▸ hs.borrower_manager) hnw
  apply never_adjustTotalOutstanding
  show 0 ≤ w.manager.totalOutstanding d.token + (newAmount - accrued'.amount)
  omega

lemma never_checkDefaults {ids : List Nat} (hw : w.InOrder d)
    (hcash : e = .panic "loan loss exceeds managed assets" → 0 ≤ w.cash d d.token) :
    Never e (checkDefaults d env ids w) := by
  simp only [checkDefaults,never_bind,never_readAdmin,never_requireAuth,
    never_requireNotPaused,true_and]
  intro _ _ _ _ _ _
  refine never_foldlM (I := fun acc : World × Nat => acc.1.InOrder d ∧
    (e = .panic "loan loss exceeds managed assets" → 0 ≤ acc.1.cash d d.token)) ?_ ?_ ids
    ⟨hw,hcash⟩
  · rintro ⟨u,n⟩ id ⟨hu,huc⟩
    unfold checkDefaultsStep
    split
    · exact never_pure e _
    · next loan hl =>
      simp only [never_ite,never_bind,never_pure,never_defaultEnds,never_expect,
        Fault.Imbalance.panic,ne_eq,String.reduceEq,not_false_eq_true,implies_true,and_true,
        true_and]
      intro ha _ _ _
      exact never_markDefaulted hu huc hl (Decidable.not_not.mp ha)
  · rintro ⟨u,n⟩ id ⟨u',n'⟩ ⟨hu,huc⟩ h
    rcases of_checkDefaultsStep hu.sound h with rfl | ⟨old,ho,-,-,hp⟩
    · exact ⟨hu,huc⟩
    · refine ⟨hp.inOrder hu,fun he => ?_⟩
      have hc := (hu.sound.loan id old ho).collateralAmount_nonneg
      have h0 : 0 ≤ u.cash d d.token := huc he
      show 0 ≤ u'.cash d d.token
      rw [World.cash_of_flow hp.flow,if_pos rfl]
      simp only [recoveryAmounts]
      omega

/-- **Failures**: while the accounts are in order, no call of the manager finds the outstanding
total too small, nor, if no unsolicited tokens were paid out, the managed assets. -/
lemma LoanCall.never (c : LoanCall) (hw : w.InOrder d)
    (hcash : e = .panic "loan loss exceeds managed assets" → 0 ≤ w.cash d d.token) :
    Never e (c.exec d env w) := by
  cases c with
  | requestLoan => simp [exec,LoanManager.requestLoan,LoanManager.incrementBorrowerLoanCount]
  | approveLoan => exact never_approveLoan hw
  | repay => exact never_repay hw hcash
  | depositCollateral => simp [exec,LoanManager.depositCollateral]
  | releaseCollateral => simp [exec,LoanManager.releaseCollateral]
  | liquidate => exact never_liquidate hw hcash
  | cancelLoan => simp [exec,LoanManager.cancelLoan,LoanManager.returnCollateral]
  | rejectLoan => simp [exec,LoanManager.rejectLoan,LoanManager.returnCollateral]
  | purgeLoan => simp [exec,LoanManager.purgeLoan,LoanManager.releaseResidual]
  | refinanceLoan => exact never_refinanceLoan hw
  | extendLoan =>
    simp [exec,LoanManager.extendLoan,LoanManager.extensionFee,LoanManager.collectExtensionFee]
  | checkDefault => exact never_checkDefault hw hcash
  | checkDefaults => exact (never_checkDefaults hw hcash).bind fun _ _ => never_pure e _

end

/-- **Outstanding debt**: in every state that is reached, the outstanding total is the sum of the
amounts of the approved loans, and no call of the manager finds it too small. -/
theorem outstanding_ledger {d : Deployment} (g : Genesis d) (is : List (Invocation d)) :
    let w := g.after is
    (∀ token, w.manager.totalOutstanding token =
      if token = d.token then
        w.manager.loans.sumBy fun _ loan => if loan.status = .Approved then loan.amount else 0
      else 0) ∧
    ∀ (env : Env) (c : LoanCall),
      c.exec d env w ≠ .error (.panic "total outstanding underflow") := by
  have hw := g.inOrder is
  refine ⟨hw.balanced.outstanding,fun env c => c.never hw ?_⟩
  simp

end DukaPay
