import DukaPay.Protocol.Calls

/-! The assets of the pool, the outstanding total of the manager and the collateral that it holds
agree with the records of the loans in every state that is reached. -/
namespace DukaPay
open Contractlib LendingPool World
variable {d : Deployment} {env : Env} {w w' : World}

namespace Genesis
variable (g : Genesis d)

lemma pool_eq : ∃ admin, g.world.pool = { empty with
      admin := some admin
      paused := false
      circuitBreaker := none
      withdrawalCooldown := some defaultWithdrawalCooldown
      loanManager := some d.manager } := by
  obtain ⟨admin,_,_,hn,hs⟩ := g.pool
  simp only [initializePool,eq_ok] at hn
  obtain ⟨-,rfl⟩ := hn
  simp only [setLoanManager,eq_ok] at hs
  obtain ⟨_,-,-,hs⟩ := hs
  exact ⟨admin,hs.symm⟩

lemma books_eq : g.world.pool.toBooks = empty.toBooks := by
  obtain ⟨_,hp⟩ := g.pool_eq
  rw [hp]

lemma loans_eq : g.world.manager.loans = ∅ ∧ g.world.manager.totalOutstanding = fun _ => 0 := by
  obtain ⟨_,_,_,_,h⟩ := g.manager
  simp only [LoanManager.initializeManager,eq_ok] at h
  obtain ⟨-,-,-,-,-,h⟩ := h
  rw [← h]
  exact ⟨rfl,rfl⟩

lemma world_sound : g.world.Sound d := by
  obtain ⟨_,_,_,_,h⟩ := g.manager
  obtain ⟨_,hp⟩ := g.pool_eq
  obtain ⟨hn,ho⟩ := g.loans_eq
  simp only [LoanManager.initializeManager,eq_ok] at h
  obtain ⟨-,-,-,-,-,h⟩ := h
  refine ⟨?_,?_,?_,?_,?_,?_,?_,?_⟩
  · rw [← h]
  · rw [← h]
  · rw [← h]
    simp
  · rw [hp]
  · rw [g.books_eq]
    exact Books.fits_empty
  · intro tok
    rw [ho]
    exact zero_fits
  · intro id loan hl
    rw [hn] at hl
    cases hl
  · intro id loan hl
    rw [hn] at hl
    cases hl

lemma world_balanced : g.world.Balanced d := by
  obtain ⟨hl,ho⟩ := g.loans_eq
  have hb := congrArg Books.totalManagedAssets g.books_eq
  have ht : ∀ p, g.world.bank.total p = 0 := by
    intro p
    simp [Bank.total,g.log]
  refine ⟨fun t => ?_,fun t => ?_,fun t => ?_⟩
  · simp [netLent,cash,donatedToPool,g.balance_pool,ht,hb,hl,empty]
  · simp [ho,hl]
  · simp [custody,donatedToManager,g.balance_manager,ht,hl]

end Genesis

def Deployment.small : Deployment := ⟨⟨1⟩,⟨2⟩,⟨3⟩,by decide⟩

lemma Env.small_external (n) : (Env.small n).External Deployment.small := ⟨nofun,nofun,rfl,rfl⟩

def Genesis.small : Genesis Deployment.small where
  world :=
    { pool :=
        { LendingPool.empty with
          admin := some ⟨4⟩
          withdrawalCooldown := some LendingPool.defaultWithdrawalCooldown
          loanManager := some ⟨2⟩ }
      bank := .small
      manager :=
        { LoanManager.empty with
          nftContract := some ⟨7⟩
          lendingPool := some ⟨1⟩
          token := some ⟨3⟩
          admin := some ⟨4⟩
          governanceContract := some ⟨8⟩
          version := some Settings.currentVersion
          maxLoanAmount := some Settings.defaultMaxLoanAmount
          maxLoansPerBorrower := some Settings.defaultMaxLoansPerBorrower
          lateFeeRateBps := some Settings.defaultLateFeeRateBps
          gracePeriodLedgers := some Settings.defaultGracePeriodLedgers
          defaultWindowLedgers := some Settings.defaultDefaultWindowLedgers
          liquidationThresholdBps := some Settings.defaultLiquidationThresholdBps
          liquidationBonusBps := some Settings.defaultLiquidationBonusBps
          minRateBps := some Settings.defaultMinRateBps
          maxRateBps := some Settings.defaultMaxRateBps } }
  pool := ⟨⟨4⟩,.small 1,_,rfl,rfl⟩
  manager := ⟨.small 1,⟨7⟩,⟨4⟩,⟨8⟩,rfl⟩
  balance_pool := fun _ => rfl
  balance_manager := fun _ => rfl
  log := rfl

def Invocation.small (ledger : Nat) (call : Call)
    (h : ∀ loanManager, call ≠ .pool (.setLoanManager loanManager)) :
    Invocation Deployment.small :=
  ⟨.small ledger,call,Env.small_external ledger,fun loanManager hc => absurd hc (h loanManager)⟩

def Genesis.lent : List (Invocation Deployment.small) :=
  [.small 1 (.pool (.deposit ⟨5⟩ ⟨3⟩ 10000 0)) nofun,
    .small 1 (.loan (.requestLoan ⟨6⟩ 5000 100)) nofun,
    .small 1 (.loan (.approveLoan 1)) nofun]

def Genesis.pledged : List (Invocation Deployment.small) :=
  Genesis.lent ++ [.small 1 (.loan (.depositCollateral 1 6000)) nofun]

def Loan.small : Loan where
  borrower := ⟨6⟩
  amount := 5000
  collateralAmount := 0
  principalPaid := 0
  interestPaid := 0
  accruedInterest := 0
  lateFeePaid := 0
  accruedLateFee := 0
  interestRateBps := 1200
  dueDate := 17281
  lastInterestLedger := 1
  lastLateFeeLedger := 21601
  status := .Approved
  interestResidual := 0
  extensionCount := 0
  termLedgers := 17280

lemma Genesis.lookup_lent :
    (Genesis.small.after Genesis.lent).manager.loans.lookup 1 = some Loan.small := by
  decide +kernel

lemma Genesis.lookup_pledged : (Genesis.small.after Genesis.pledged).manager.loans.lookup 1 =
    some { Loan.small with collateralAmount := 6000 } := by
  decide +kernel

structure World.InOrder (d : Deployment) (w : World) : Prop where
  sound : w.Sound d
  balanced : w.Balanced d

namespace World.InOrder
variable {id : Nat} {loan : Loan}

lemma outstanding_nonneg (hw : w.InOrder d) : 0 ≤ w.manager.totalOutstanding d.token := by
  rw [hw.balanced.outstanding,if_pos rfl]
  exact Storage.sumBy_nonneg fun j l hl => (hw.sound.loan j l hl).owed_nonneg

lemma amount_le (hw : w.InOrder d) (hl : w.manager.loans.lookup id = some loan)
    (ha : loan.status = .Approved) : loan.amount ≤ w.manager.totalOutstanding d.token := by
  have he := Storage.le_sumBy (f := fun _ l => Loan.owed l)
    (fun j l hl => (hw.sound.loan j l hl).owed_nonneg) hl
  rw [hw.balanced.outstanding,if_pos rfl]
  simpa [Loan.owed,ha] using he

lemma receivables_le (hw : w.InOrder d) (hc : 0 ≤ w.cash d d.token) :
    w.manager.loans.sumBy (fun _ l => l.receivable) ≤ w.pool.totalManagedAssets d.token := by
  have hl := hw.balanced.netLent d.token
  rw [if_pos rfl] at hl
  unfold netLent at hl
  omega

lemma remaining_le (hw : w.InOrder d) (hc : 0 ≤ w.cash d d.token)
    (hl : w.manager.loans.lookup id = some loan) (ha : loan.status = .Approved) :
    loan.remaining ≤ w.pool.totalManagedAssets d.token := by
  have he := Storage.le_sumBy (f := fun _ l => Loan.receivable l)
    (fun j l hl => (hw.sound.loan j l hl).receivable_nonneg) hl
  have hs := hw.receivables_le hc
  simp only [Loan.receivable,ha,if_true] at he
  exact le_trans he hs

end World.InOrder

lemma Posting.inOrder {id new x} (hw : w.InOrder d) (h : Posting d id new x w w') : w'.InOrder d :=
  ⟨h.world_sound hw.sound,h.balanced hw.balanced⟩

lemma PoolCall.inOrder {c : PoolCall} {pw} (hw : w.InOrder d) (he : env.External d)
    (hc : ∀ loanManager, c = .setLoanManager loanManager → loanManager = d.manager)
    (h : c.exec d.pool env w.toPoolWorld = .ok pw) :
    World.InOrder d { w with toPoolWorld := pw } := by
  have hn := PoolCall.neutral he hw.sound.loanManager h
  refine ⟨⟨hw.sound.token,hw.sound.lendingPool,hw.sound.admin,
    PoolCall.loanManager_kept hc hw.sound.loanManager h,PoolCall.fits hw.sound.managed_fits h,
    hw.sound.outstanding_fits,hw.sound.loan,hw.sound.id_le⟩,
    ⟨fun t => ?_,hw.balanced.outstanding,fun t => ?_⟩⟩
  · rw [hn.netLent]
    exact hw.balanced.netLent t
  · rw [hn.custody]
    exact hw.balanced.custody t

lemma SettingCall.inOrder {c : SettingCall} {m} (hw : w.InOrder d)
    (h : c.exec d env w.manager = .ok m) : World.InOrder d { w with manager := m } := by
  obtain ⟨ht,hr⟩ := SettingCall.keeps hw.sound.admin h
  refine ⟨⟨ht.token.trans hw.sound.token,ht.lendingPool.trans hw.sound.lendingPool,
    ht.admin hw.sound.admin,hw.sound.loanManager,hw.sound.managed_fits,?_,?_,?_⟩,
    ⟨?_,?_,?_⟩⟩
  · intro tok
    rw [hr.totalOutstanding]
    exact hw.sound.outstanding_fits tok
  · rw [hr.loans]
    exact hw.sound.loan
  · rw [hr.loans,hr.loanCounter]
    exact hw.sound.id_le
  · rw [hr.loans]
    exact hw.balanced.netLent
  · rw [hr.loans,hr.totalOutstanding]
    exact hw.balanced.outstanding
  · rw [hr.loans]
    exact hw.balanced.custody

lemma Invocation.inOrder (i : Invocation d) (hw : w.InOrder d)
    (h : i.call.exec d i.env w = .ok w') : w'.InOrder d := by
  obtain ⟨_,call,he,hl⟩ := i
  cases call with
  | pool =>
    simp only [Call.exec,eq_ok] at h
    obtain ⟨_,hpw,rfl⟩ := h
    exact PoolCall.inOrder hw he (fun loanManager hc => hl loanManager (by rw [hc])) hpw
  | loan =>
    exact (LoanCall.postings hw.sound he h).induction (fun _ _ _ _ _ hu hp => hp.inOrder hu) hw
  | setting =>
    simp only [Call.exec,eq_ok] at h
    obtain ⟨_,hm,rfl⟩ := h
    exact SettingCall.inOrder hw hm

lemma Genesis.inOrder (g : Genesis d) (is) : (g.after is).InOrder d :=
  Transactional.run_induction (S := protocol d) (fun _ i _ hw h => i.inOrder hw h)
    ⟨g.world_sound,g.world_balanced⟩ is

/-- **Book value**: in every state that is reached, the managed assets are the balance of the pool
without the unsolicited tokens, and the principal that approved loans have still to repay. -/
theorem book_value_conservation (g : Genesis d) (is : List (Invocation d)) (token : Address) :
    (g.after is).pool.totalManagedAssets token =
      (g.after is).bank.balance token d.pool - (g.after is).donatedToPool d token +
      if token = d.token then (g.after is).manager.loans.sumBy fun _ loan =>
      if loan.status = .Approved then loan.amount - loan.principalPaid else 0 else 0 := by
  have hl := (g.inOrder is).balanced.netLent token
  unfold World.netLent World.cash at hl
  exact sub_eq_iff_eq_add'.mp hl

def World.collateral (w : World) (id : Nat) : Int :=
  contribution Loan.collateralAmount (w.manager.loans.lookup id)

lemma Postings.balance_manager {ids} (h : Postings d ids w w') (t) :
    w'.bank.balance t d.manager = w.bank.balance t d.manager +
    if t = d.token then ∑ id ∈ ids, (w'.collateral id - w.collateral id) else 0 := by
  induction h with
  | nil => simp
  | @cons id new x w1 w2 w3 hd h _ ih =>
    -- of the loans named, the first posting changes the collateral of `id` only
    have ho : ∀ j ∈ ids, j ≠ id → w2.collateral j - w1.collateral j = 0 := by
      intro j _ hj
      unfold collateral
      rw [h.loans.lookup_ne hj,sub_self]
    have hf := Finset.sum_eq_single id ho (fun hn => absurd hd hn)
    have hs : ∑ j ∈ ids, (w3.collateral j - w1.collateral j) =
        ∑ j ∈ ids, (w3.collateral j - w2.collateral j) + (w2.collateral id - w1.collateral id) := by
      rw [← hf,← Finset.sum_add_distrib]
      exact Finset.sum_congr rfl fun j _ => (sub_add_sub_cancel _ _ _).symm
    have hh : w2.collateral id - w1.collateral id = contribution Loan.collateralAmount new -
        contribution Loan.collateralAmount (w1.manager.loans.lookup id) := by
      unfold collateral
      rw [h.loans.lookup_self]
    rw [ih,h.flow.manager,hs,hh]
    split <;> omega

/-- **Custody**: in every state that is reached, the manager holds the unsolicited tokens and the
collateral of the records, and a loan in a final status has none. -/
theorem collateral_custody (g : Genesis d) (is : List (Invocation d)) :
    let w := g.after is
    (∀ token, w.bank.balance token d.manager = w.donatedToManager d token +
      if token = d.token then w.manager.loans.sumBy fun _ loan => loan.collateralAmount else 0) ∧
    (∀ id loan, w.manager.loans.lookup id = some loan → loan.status.Terminal →
      loan.collateralAmount = 0) ∧
    ∀ (env : Env) (c : LoanCall) (w' : World), env.External d → c.exec d env w = .ok w' →
        (∀ id, id ∉ c.loanIds w →
          w'.manager.loans.lookup id = w.manager.loans.lookup id) ∧
        ∀ token, w'.bank.balance token d.manager = w.bank.balance token d.manager +
          if token = d.token then
            ∑ id ∈ c.loanIds w, (w'.collateral id - w.collateral id) else 0 := by
  have hw := g.inOrder is
  refine ⟨fun token => ?_,fun id loan hl ht => (hw.sound.loan id loan hl).released ht,?_⟩
  · have hc := hw.balanced.custody token
    unfold World.custody at hc
    exact sub_eq_iff_eq_add'.mp hc
  · intro env c w' he h
    have hp := LoanCall.postings hw.sound he h
    exact ⟨fun id hid => hp.lookup_eq hid,hp.balance_manager⟩

end DukaPay
