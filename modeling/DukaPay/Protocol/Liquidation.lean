import DukaPay.Protocol.Failures

/-! The two views of a loan and the call that liquidates it decide alike: an approved loan has a
debt, and the threshold is never zero. -/
namespace DukaPay
open Contractlib LoanManager

section
variable {d : Deployment} {env : Env} {w w' : World}

def Settings.Guarded (s : Settings) : Prop := 0 < s.readLiquidationThresholdBps

lemma SettingCall.guarded {c : SettingCall} {m m' : LoanManager} (hm : m.Guarded)
    (h : c.exec d env m = .ok m') : m'.Guarded := by
  cases c with
  | initializeManager =>
    simp only [exec,LoanManager.initializeManager,eq_ok] at h
    obtain ⟨-,-,-,-,-,rfl⟩ := h
    exact Nat.succ_pos _
  | migrate =>
    simp only [exec,LoanManager.migrate,eq_ok] at h
    obtain ⟨_,-,-,h⟩ := h
    split at h
    · cases h
      exact hm
    · cases h
      exact hm
  | setAdmin =>
    simp only [exec,LoanManager.setAdmin,eq_ok] at h
    obtain ⟨_,-,_,-,-,rfl⟩ := h
    exact hm
  | setLiquidationThreshold ratioBps =>
    simp only [exec,LoanManager.setLiquidationThreshold] at h
    obtain ⟨_,rfl⟩ := eq_of_configure h
    simp only [configure,validateLiquidationThreshold,eq_ok] at h
    exact lt_of_lt_of_le (by decide) h.1
  | pause | unpause | setCircuitBreaker _ | setLateFeeRate _ | setLiquidationBonusBps _
  | setGracePeriodLedgers _ | setDefaultWindowLedgers _ | setMinScore _ | setMaxLoanAmount _
  | setMinRepaymentAmount _ | setMaxLoansPerBorrower _ | setInterestRate _ | setRateOracle _
  | setPriceOracle _ | setCollateralToken _ | setMinRateBps _ | setMaxRateBps _ | setDefaultTerm _
  | setMinTermLedgers _ | setMaxTermLedgers _ =>
    simp only [exec,LoanManager.setMinTermLedgers,LoanManager.setMaxTermLedgers] at h
    obtain ⟨_,rfl⟩ := eq_of_configure h
    exact hm

lemma Invocation.guarded (i : Invocation d) (hw : w.InOrder d) (hm : w.manager.Guarded)
    (h : i.call.exec d i.env w = .ok w') : w'.manager.Guarded := by
  obtain ⟨_,call,he,_⟩ := i
  cases call with
  | pool =>
    simp only [Call.exec,eq_ok] at h
    obtain ⟨_,-,rfl⟩ := h
    exact hm
  | loan =>
    refine (LoanCall.postings hw.sound he h).induction (I := fun u => u.manager.Guarded)
      (fun _ _ _ u u' hu hp => ?_) hm
    rw [hp.settings]
    exact hu
  | setting =>
    simp only [Call.exec,eq_ok] at h
    obtain ⟨_,hs,rfl⟩ := h
    exact SettingCall.guarded hm hs

lemma Genesis.guarded (g : Genesis d) (is) : (g.after is).manager.Guarded := by
  refine (Transactional.run_induction (S := protocol d)
    (I := fun w => w.InOrder d ∧ w.manager.Guarded)
    (fun _ i _ hw h => ⟨i.inOrder hw.1 h,i.guarded hw.1 hw.2 h⟩) ⟨g.inOrder [],?_⟩ is).2
  obtain ⟨_,_,_,_,h⟩ := g.manager
  exact SettingCall.guarded (m := LoanManager.empty) (c := .initializeManager _ _ _ _ _)
    (Nat.succ_pos _) h

end

lemma below_iff_ratio_lt {v debt ratio threshold below} (hd : 0 < debt) (hp : 0 < threshold)
    (hm : threshold ≤ u32.hi) (hb : isCollateralRatioBelowThreshold v debt threshold = .ok below)
    (hr : currentRatioBps v debt = .ok ratio) : below = true ↔ ratio < threshold := by
  simp only [isCollateralRatioBelowThreshold,currentRatioBps,hd.not_ge,if_false,false_or] at hb hr
  split at hb
  case isTrue hv =>
    rw [if_pos hv] at hr
    cases hb
    cases hr
    simpa using hp
  case isFalse hv =>
    rw [if_neg hv] at hr
    simp only [eq_ok,okOr_eq_ok] at hb hr
    obtain ⟨_,⟨-,rfl⟩,_,⟨-,rfl⟩,rfl⟩ := hb
    obtain ⟨_,⟨-,rfl⟩,_,hdv,rfl⟩ := hr
    rw [Money.roundDiv_floor hd hdv,decide_eq_true_eq,min_lt_iff,
      Int.ediv_lt_iff_lt_mul hd,mul_comm debt]
    exact ⟨.inl,fun h => h.resolve_right (by omega)⟩

section
variable {d : Deployment} {env : Env} {w w' : World} {id : Nat} {liquidator : Address} {loan : Loan}

section
variable {e : LoanError} {m : LoanManager} {token src dst : Address} {amount debt : Int}

@[simp] lemma never_loan_configuredBonus : Never (.loan e) (m.configuredBonus amount) := by
  simp [configuredBonus]

@[simp] lemma never_loan_liquidationPayout {bon} :
    Never (.loan e) (liquidationPayout amount debt bon) := by
  simp [liquidationPayout]

lemma never_loan_allocateUnits {dues n a} : Never (.loan e) (Loan.allocateUnits dues n a) := by
  induction n generalizing a with
  | zero => simp [Loan.allocateUnits]
  | succ n ih => simp [Loan.allocateUnits,ih]

@[simp] lemma never_loan_applyDebtRecovery : Never (.loan e) (loan.applyDebtRecovery amount) := by
  simp [Loan.applyDebtRecovery,Loan.proportionalRepaymentSplit,Loan.allocateShare,Loan.applySplit,
    Loan.remainingPrincipal,Loan.totalDebt,never_loan_allocateUnits]

@[simp] lemma never_loan_closeOutstanding : Never (.loan e) (m.closeOutstanding token loan) := by
  simp [closeOutstanding,adjustTotalOutstanding]

@[simp] lemma never_loan_transferPositive :
    Never (.loan e) (w.transferPositive d env token src dst amount) := by
  simp [World.transferPositive,World.transfer,Bank.never_transfer]

@[simp] lemma never_loan_recordPoolRecovery {rcv} :
    Never (.loan e) (w.recordPoolRecovery d env token amount rcv) := by
  simp [World.recordPoolRecovery,World.recordLoanYield,World.recordLoanLoss,
    Settings.readLendingPool,LendingPool.recordLoanYield,LendingPool.recordLoanLoss,
    LendingPool.requireLoanManager,LendingPool.yieldDistributed,Env.requireAuth]

end

/-- Past its two checks, the call has no error of the manager left to return. -/
lemma liquidate_decides (hl : w.manager.loans.lookup id = some loan)
    (ha : env.requireAuth liquidator = .ok ()) (hps : requireNotPaused d env w = .ok ())
    {b} (hv : isLiquidatable env id w.manager = .ok b) :
    b = true ↔ liquidate d env liquidator id w ≠ .error (.loan .LoanNotLiquidatable) ∧
    liquidate d env liquidator id w ≠ .error (.loan .LoanNotActive) := by
  have hr : w.manager.readLoan id = .ok loan := readLoan_eq_ok.mpr hl
  simp only [isLiquidatable,eq_ok,readLoan_eq_ok] at hv
  obtain ⟨_,hs,hv⟩ := hv
  cases hl.symm.trans hs
  split at hv
  case isTrue ht =>
    cases hv
    simp [liquidate,ha,hps,hr,bind,Except.bind,ensure,ht]
  case isFalse ht =>
    simp only [eq_ok,Prod.exists] at hv
    obtain ⟨acc,debt,_,hd,val,hvl,hb⟩ := hv
    cases b with
    | false =>
      simp [liquidate,ha,hps,hr,hd,hvl,hb,bind,Except.bind,ensure,Decidable.not_not.mp ht]
    | true =>
      have hn (e : LoanError) : Never (.loan e) (liquidate d env liquidator id w) := by
        have ho {α β : Type} (a : α) (f : α → Res β) : (Except.ok a >>= f) = f a := rfl
        have he {p : Prop} [Decidable p] (hp : p) (e : Fault) : ensure p e = .ok () := if_pos hp
        simp [liquidate,ha,hps,hr,hd,hvl,hb,ho,he,Decidable.not_not.mp ht,Loan.remainingPrincipal]
      exact ⟨fun _ => ⟨hn _,hn _⟩,fun _ => rfl⟩

lemma debt_pos_of_currentTotalDebt {acc debt fee} (hs : loan.Sound d)
    (hap : loan.status = .Approved)
    (h : loan.currentTotalDebt env w.manager.toSettings = .ok (acc,debt,fee)) : 0 < debt := by
  obtain ⟨ha,rfl,-⟩ := Loan.of_currentTotalDebt hs.toInRange hap h
  have hp := hs.debt_pos hap
  have hn := ha.accruedInterest_le
  have hf := ha.accruedLateFee_le
  have hr := ha.remaining
  unfold Loan.debt at hp ⊢
  omega

end

lemma ratio_of_below {v debt thr below}
    (h : isCollateralRatioBelowThreshold v debt thr = .ok below) :
    ∃ ratio, currentRatioBps v debt = .ok ratio := by
  unfold isCollateralRatioBelowThreshold currentRatioBps at *
  by_cases hd : debt ≤ 0
  · exact ⟨0,if_pos (.inl hd)⟩
  by_cases hv : v ≤ 0
  · exact ⟨0,if_pos (.inr hv)⟩
  simp only [hd,hv,if_false,or_self,eq_ok] at h ⊢
  obtain ⟨_,⟨hf,rfl⟩,-⟩ := h
  have hdv := Money.roundDiv_of_nonneg (mul_nonneg (not_le.mp hv).le (by decide)) hf (not_le.mp hd)
  exact ⟨_,_,⟨hf,rfl⟩,_,okOr_eq_ok.mpr hdv,rfl⟩

lemma bonus_of_liquidationPayout {c debt bon pay}
    (hb : 0 ≤ bon) (h : liquidationPayout c debt bon = .ok pay) :
    pay.liquidatorBonus ≤ bon ∧ (c ≤ debt → pay.liquidatorBonus = 0) := by
  unfold liquidationPayout at h
  split at h
  · simp only [eq_ok] at h
    obtain ⟨_,⟨-,rfl⟩,_,⟨-,rfl⟩,rfl⟩ := h
    simp only
    omega
  · cases h
    exact ⟨hb,fun _ => rfl⟩

/-- What a liquidation does: the manager pays the debt to the pool, the bonus to the liquidator and
the rest to the borrower, the pool books what it gains or loses, and the loan is closed. -/
structure Liquidated (d : Deployment) (env : Env) (id : Nat) (loan : Loan) (liquidator : Address)
    (payout : Payout) (w w' : World) : Prop where
  balance : ∀ token holder, w'.bank.balance token holder = w.bank.balance token holder +
    if token = d.token then
      (if holder = d.pool then payout.debtRepaid else 0) +
      (if holder = liquidator then payout.liquidatorBonus else 0) +
      (if holder = loan.borrower then payout.borrowerRefund else 0) -
      (if holder = d.manager then loan.collateralAmount else 0)
    else 0
  settled : Settled d.token (max 0 (payout.debtRepaid - loan.remaining))
    (max 0 (loan.remaining - payout.debtRepaid)) w.pool w'.pool
  closed : ∃ new, w'.manager.loans.lookup id = some new ∧ new.status = .Liquidated ∧
    new.collateralAmount = 0
  event : w'.manager.events = (env.sequence,.LoanLiquidated id loan.borrower liquidator
    payout.debtRepaid payout.liquidatorBonus payout.borrowerRefund) :: w.manager.events

section
variable {d : Deployment} {env : Env} {w w' : World} {id : Nat} {liquidator : Address} {loan : Loan}

lemma balance_of_transferPositive {token src dst : Address} {amount : Int} (h0 : 0 ≤ amount)
    (h : w.transferPositive d env token src dst amount = .ok w') :
    ∃ b, w' = { w with bank := b } ∧ ∀ t holder, b.balance t holder = w.bank.balance t holder +
    if t = token then (if holder = dst then amount else 0) - (if holder = src then amount else 0)
    else 0 := by
  obtain ⟨b,rfl,⟨rfl,rfl⟩ | hm⟩ := World.of_transferPositive h0 h
  · exact ⟨_,rfl,by simp⟩
  · exact ⟨b,rfl,hm.balance⟩

lemma events_of_closeOutstanding {token} {m m' : LoanManager}
    (h : m.closeOutstanding token loan = .ok m') : m'.events = m.events := by
  simp only [closeOutstanding,adjustTotalOutstanding,eq_ok] at h
  obtain ⟨_,-,h⟩ := h
  split at h
  · cases h
    rfl
  · simp only [eq_ok] at h
    obtain ⟨_,-,-,rfl⟩ := h
    rfl

/-- **One liquidation**, with the collateral, the debt and the bonus that it reckons with. -/
lemma liquidated_of_liquidate (hw : w.Sound d) (hl : w.manager.loans.lookup id = some loan)
    (h : liquidate d env liquidator id w = .ok w') :
    ∃ acc debt fee value bonus payout, loan.status = .Approved ∧
    loan.currentTotalDebt env w.manager.toSettings = .ok (acc,debt,fee) ∧
    w.manager.collateralValueUnits env acc.collateralAmount = .ok value ∧
    isCollateralRatioBelowThreshold value debt w.manager.readLiquidationThresholdBps = .ok true ∧
    w.manager.configuredBonus acc.collateralAmount = .ok bonus ∧
    liquidationPayout acc.collateralAmount debt bonus = .ok payout ∧
    Liquidated d env id loan liquidator payout w w' := by
  simp only [liquidate,eq_ok,readLoan_eq_ok,Prod.exists] at h
  obtain ⟨-,-,_,ho,hap,acc,debt,fee,hac,h⟩ := h
  obtain ⟨value,hu,below,hb,hbt,bonus,hn,payout,hy,_,hp,h⟩ := h
  obtain ⟨_,hr,_,hk,m,hm,pool,hpl,h⟩ := h
  obtain ⟨_,hw1,_,hw2,_,hw3,_,hw4,rfl⟩ := h
  cases hl.symm.trans ho
  subst hbt
  cases Loan.eq_of_remainingPrincipal hp
  cases hw.token_eq hk
  have hs := hw.loan id loan hl
  obtain ⟨hc,rfl,-⟩ := Loan.of_currentTotalDebt hs.toInRange hap hac
  have hrg := hc.inRange hs.toInRange
  have hd0 := hrg.debt_nonneg
  have hc0 := hrg.collateralAmount_nonneg
  obtain ⟨hrp,hb0,hr0,hsm⟩ := of_liquidationPayout (configuredBonus_nonneg hc0 hn) hy
  obtain ⟨split,-,rfl⟩ := Loan.covers_of_applyDebtRecovery hrg (by omega) (by omega) hr
  have hcls := LoanManager.Updates.close id hm
  obtain rfl : pool = d.pool := by
    have hm' : m.lendingPool = some d.pool := hcls.settings ▸ hw.lendingPool
    exact Option.some.inj ((show m.lendingPool = some pool from hpl).symm.trans hm')
  obtain ⟨_,rfl,hb1⟩ := balance_of_transferPositive (by omega) hw1
  obtain ⟨_,rfl,ht⟩ := World.of_recordPoolRecovery hw2
  obtain ⟨_,rfl,hb2⟩ := balance_of_transferPositive hb0 hw3
  obtain ⟨_,rfl,hb3⟩ := balance_of_transferPositive hr0 hw4
  have hbr : (acc.paid split).borrower = loan.borrower := hc.borrower
  rw [hc.remaining] at ht
  refine ⟨acc,_,fee,value,bonus,payout,hap,hac,hu,hb,hn,hy,?_,ht,?_,?_⟩
  · intro token holder
    have hcl : acc.collateralAmount = loan.collateralAmount := hc.collateralAmount
    rw [hb3,hb2,hb1]
    dsimp only
    rw [hbr,← hcl]
    by_cases htk : token = d.token
    · simp only [if_pos htk]
      split_ifs <;> omega
    · simp only [if_neg htk]
      omega
  · exact ⟨_,AList.lookup_insert _,rfl,rfl⟩
  · show _ :: m.events = _
    rw [events_of_closeOutstanding hm,← hbr]

lemma isLiquidatable_iff_ratio {id : Nat} {loan : Loan} {b collateral debt ratio}
    (hs : loan.Sound d) (hg : w.manager.Guarded)
    (hu32 : w.manager.readLiquidationThresholdBps ≤ u32.hi)
    (hl : w.manager.loans.lookup id = some loan) (hv : isLiquidatable env id w.manager = .ok b)
    (hh : getLoanHealth env id w.manager = .ok (collateral,debt,ratio)) :
    b = true ↔ loan.status = .Approved ∧ ratio < w.manager.readLiquidationThresholdBps := by
  simp only [isLiquidatable,getLoanHealth,eq_ok,readLoan_eq_ok] at hv hh
  obtain ⟨_,he,hv⟩ := hv
  cases hl.symm.trans he
  obtain ⟨_,he,hh⟩ := hh
  cases hl.symm.trans he
  by_cases hap : loan.status = .Approved
  · simp only [hap,ne_eq,not_true_eq_false,if_false,eq_ok,Prod.exists] at hv hh
    obtain ⟨acc,_,_,hd,val,hu,hb⟩ := hv
    obtain ⟨_,_,_,hdebt',_,hvalue',_,hr,heq⟩ := hh
    cases hd.symm.trans hdebt'
    cases hu.symm.trans hvalue'
    cases heq
    have hf := below_iff_ratio_lt (debt_pos_of_currentTotalDebt hs hap hd) hg hu32 hb hr
    exact hf.trans ⟨fun h => ⟨hap,h⟩,fun h => h.2⟩
  · simp only [ne_eq,hap,not_false_eq_true,if_true,eq_ok] at hv
    simp [← hv,hap]

lemma configuredBonus_le {m : LoanManager} {collateral bonus : Int}
    (h : m.configuredBonus collateral = .ok bonus) :
    bonus * 10000 ≤ collateral * m.readLiquidationBonusBps := by
  simp only [configuredBonus,eq_ok,okOr_eq_ok] at h
  obtain ⟨_,⟨-,rfl⟩,hd⟩ := h
  rw [Money.roundDiv_floor (by decide) hd]
  exact Int.ediv_mul_le _ (by decide)

end

/-- **Liquidation**: in every state that is reached, the views and the call decide alike, and a
liquidation shares the collateral out between the debt, the bonus and the borrower. -/
theorem liquidation_views_agree {d : Deployment} (g : Genesis d) (is : List (Invocation d))
    (env : Env) (id : Nat) (loan : Loan) (liquidator : Address)
    (hl : (g.after is).manager.loans.lookup id = some loan)
    (hu32 : (g.after is).manager.readLiquidationThresholdBps ≤ u32.hi) :
    let w := g.after is
    (∀ b collateral debt ratio, isLiquidatable env id w.manager = .ok b →
      getLoanHealth env id w.manager = .ok (collateral,debt,ratio) →
      (b = true ↔ loan.status = .Approved ∧ ratio < w.manager.readLiquidationThresholdBps)) ∧
    (∀ b, isLiquidatable env id w.manager = .ok b → env.requireAuth liquidator = .ok () →
      requireNotPaused d env w = .ok () →
      (b = true ↔ liquidate d env liquidator id w ≠ .error (.loan .LoanNotLiquidatable) ∧
        liquidate d env liquidator id w ≠ .error (.loan .LoanNotActive))) ∧
    ∀ w', liquidate d env liquidator id w = .ok w' →
      ∃ collateral debt ratio payout,
        getLoanHealth env id w.manager = .ok (collateral,debt,ratio) ∧
        collateral = loan.collateralAmount ∧
        payout.debtRepaid = min collateral debt ∧
        payout.debtRepaid + payout.liquidatorBonus + payout.borrowerRefund = collateral ∧
        payout.liquidatorBonus * 10000 ≤ collateral * w.manager.readLiquidationBonusBps ∧
        (collateral ≤ debt → payout.liquidatorBonus = 0) ∧
        Liquidated d env id loan liquidator payout w w' := by
  intro w
  have hw : w.Sound d := (g.inOrder is).sound
  have hs := hw.loan id loan hl
  refine ⟨fun b collateral debt ratio hv hh => isLiquidatable_iff_ratio hs (g.guarded is) hu32 hl
    hv hh,fun b hv ha hps => liquidate_decides hl ha hps hv,fun w' h => ?_⟩
  obtain ⟨acc,debt,fee,val,bonus,pay,hap,hd,hu,hb,ho,hp,hlq⟩ := liquidated_of_liquidate hw hl h
  obtain ⟨ratio,hr⟩ := ratio_of_below hb
  obtain ⟨hac,-,-⟩ := Loan.of_currentTotalDebt hs.toInRange hap hd
  have hbonus0 := configuredBonus_nonneg (hac.inRange hs.toInRange).collateralAmount_nonneg ho
  obtain ⟨hrp,-,-,hsm⟩ := of_liquidationPayout hbonus0 hp
  obtain ⟨hle,hz⟩ := bonus_of_liquidationPayout hbonus0 hp
  refine ⟨acc.collateralAmount,debt,ratio,pay,?_,hac.collateralAmount,hrp,hsm,?_,hz,hlq⟩
  · have hrd : w.manager.readLoan id = .ok loan := readLoan_eq_ok.mpr hl
    simp [getLoanHealth,hrd,hap,hd,hu,hr,bind,Except.bind,pure,Except.pure]
  · exact (Int.mul_le_mul_of_nonneg_right hle (by decide)).trans (configuredBonus_le ho)

/-- A loan of 5000 with a collateral of 6000: the pool gets 5000, the liquidator the bonus of 300,
the borrower 700. -/
theorem liquidation_views_agree_pledged :
    isLiquidatable (.small 1) 1 (Genesis.small.after Genesis.pledged).manager = .ok true ∧
    ∃ w', liquidate .small (.small 1) ⟨5⟩ 1 (Genesis.small.after Genesis.pledged) = .ok w' ∧
    ∃ payout, payout.debtRepaid = 5000 ∧ payout.liquidatorBonus = 300 ∧
      payout.borrowerRefund = 700 ∧ Liquidated .small (.small 1) 1
      { Loan.small with collateralAmount := 6000 } ⟨5⟩ payout
      (Genesis.small.after Genesis.pledged) w' := by
  have hr : (fun w : World => (w.bank.balance ⟨3⟩ ⟨1⟩,w.bank.balance ⟨3⟩ ⟨5⟩)) <$>
      liquidate .small (.small 1) ⟨5⟩ 1 (Genesis.small.after Genesis.pledged) =
      .ok ((Genesis.small.after Genesis.pledged).bank.balance ⟨3⟩ ⟨1⟩ + 5000,
        (Genesis.small.after Genesis.pledged).bank.balance ⟨3⟩ ⟨5⟩ + 300) := by
    decide +kernel
  obtain ⟨w',hw',he⟩ := map_eq_ok.mp hr
  obtain ⟨hp,hq⟩ := Prod.mk.inj he
  obtain ⟨-,-,h⟩ := liquidation_views_agree Genesis.small Genesis.pledged (.small 1) 1
    { Loan.small with collateralAmount := 6000 } ⟨5⟩ Genesis.lookup_pledged (by decide +kernel)
  obtain ⟨_,_,_,pay,-,rfl,-,hs,-,-,hl⟩ := h w' hw'
  have hd : pay.debtRepaid = 5000 := by
    rw [hl.balance] at hp
    simpa [Deployment.small,Loan.small] using hp
  have hb : pay.liquidatorBonus = 300 := by
    rw [hl.balance] at hq
    simpa [Deployment.small,Loan.small] using hq
  refine ⟨by decide +kernel,w',hw',pay,hd,hb,?_,hl⟩
  dsimp only at hs
  omega

end DukaPay
