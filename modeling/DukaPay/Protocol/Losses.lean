import DukaPay.LendingPool.Price
import DukaPay.Protocol.Failures

/-! A redemption can pay out tokens that came in unsolicited; the managed assets then no longer
cover the loans. -/
namespace DukaPay
open Contractlib LendingPool Finset World
variable {d : Deployment} {env : Env} {w w' : World}

def Call.draws (d : Deployment) (w : World) : Call → Int
  | .pool (.withdraw _ token shares _) | .pool (.emergencyWithdraw _ token shares _) =>
    if token = d.token then w.pool.redeemable token shares else 0
  | .loan c => c.payout w
  | _ => 0

def Call.Overdraws (d : Deployment) (w : World) (c : Call) : Prop :=
  w.cash d d.token < c.draws d w ∧ c.draws d w ≤ w.bank.balance d.token d.pool

instance (d : Deployment) (w : World) (c : Call) : Decidable (c.Overdraws d w) :=
  inferInstanceAs (Decidable (_ ∧ _))

lemma Books.le_managed_post {b} {e : Entry} (he : e.Admissible b)
    (hb : ∀ provider token brn ast, e ≠ .burn provider token brn ast)
    (hl : ∀ token amt, e ≠ .lose token amt) (token) :
    b.totalManagedAssets token ≤ (b.post e).totalManagedAssets token := by
  cases e with
  | idle | report _ _ => exact le_refl _
  | mint _ tok' amt _ _ =>
    have hp := he.1
    simp only [post,mint,Function.update_apply]
    split
    · next ht => rw [ht]; omega
    · exact le_refl _
  | gain =>
    have hp := he.1
    simp only [post,gain,Function.update_apply]
    split
    · next ht => rw [ht]; omega
    · exact le_refl _
  | burn provider tok' brn ast => exact absurd rfl (hb provider tok' brn ast)
  | lose tok' amt => exact absurd rfl (hl tok' amt)

variable {pw : PoolWorld}

lemma PoolCall.Makes.ne_lose {c : PoolCall} {e} (hk : c.Makes env e) (he : env.External d)
    (hm : w.pool.loanManager = some d.manager) (h : c.exec d.pool env w.toPoolWorld = .ok pw)
    (token amount) : e ≠ .lose token amount := by
  rintro rfl
  obtain rfl := hk.lose
  simp only [exec,bind_eq_ok] at h
  obtain ⟨_,hl,-⟩ := h
  exact not_loanManager he hm (posted_of_recordLoanLoss hl).1

lemma cash_nonneg_of_redemption {provider token brn assets} {c : Call} (hc : 0 ≤ w.cash d d.token)
    (hd : c.draws d w = if token = d.token then w.pool.redeemable token brn else 0)
    (ho : ¬ c.Overdraws d w)
    (hp : LendingPool.Posted (.burn provider token brn assets) w.pool pw.pool)
    (hm : Bank.Moved ⟨token,d.pool,provider,assets,some d.pool⟩ w.bank pw.bank)
    (hnp : provider ≠ d.pool) (hn : provider ≠ d.manager) :
    0 ≤ cash d { w with toPoolWorld := pw } d.token := by
  have hf : Flow d token 0 assets 0 w.bank pw.bank := .paidOut hm (.inl rfl) hnp hn
  rw [cash_of_flow hf]
  split
  · next ht =>
    subst ht
    obtain ⟨-,-,-,ha,-⟩ := hp.admissible
    have hl : c.draws d w = assets := by rw [hd,if_pos rfl,Books.redeemable,ha]
    have hv : assets ≤ w.bank.balance d.token d.pool := hm.covered
    unfold Call.Overdraws at ho
    rw [hl] at ho
    omega
  · omega

lemma PoolCall.cash_nonneg {c} (hw : w.InOrder d) (he : env.External d)
    (hc : 0 ≤ w.cash d d.token) (ho : ¬ (Call.pool c).Overdraws d w)
    (h : c.exec d.pool env w.toPoolWorld = .ok pw) :
    0 ≤ cash d { w with toPoolWorld := pw } d.token := by
  obtain ⟨e,hm,hd,hb⟩ := PoolCall.posts h
  by_cases hr : ∀ provider token brn ast, e ≠ .burn provider token brn ast
  · have hs := hm.ne_lose he hw.sound.loanManager h
    -- the cash changes by as much as the managed ast
    have hn := (PoolCall.neutral he hw.sound.loanManager h).netLent d.token
    have hl := Books.le_managed_post hd hr hs d.token
    rw [← hb] at hl
    unfold netLent at hn
    simp only at hn
    omega
  · push Not at hr
    obtain ⟨provider,token,brn,ast,rfl⟩ := hr
    rcases hm.burn with ⟨minAssetsOut,rfl⟩ | ⟨minAssetsOut,rfl⟩
    · obtain ⟨ha,ast',hp,hv⟩ := posted_of_withdraw h
      exact cash_nonneg_of_redemption hc rfl ho hp hv (he.not_pool ha) (he.not_manager ha)
    · obtain ⟨ha,ast',hp,hv⟩ := posted_of_emergencyWithdraw h
      exact cash_nonneg_of_redemption hc rfl ho hp hv (he.not_pool ha) (he.not_manager ha)

lemma LoanCall.cash_nonneg {c} (hw : w.InOrder d) (he : env.External d)
    (hc : 0 ≤ w.cash d d.token) (hno : ¬ (Call.loan c).Overdraws d w)
    (h : c.exec d env w = .ok w') : 0 ≤ w'.cash d d.token := by
  rcases posting_or_batch hw.sound he h with ⟨id,new,x,hp,hr⟩ | ⟨ids,n,rfl,ht⟩
  · have hn := hr.inflow_nonneg
    have hot := hr.outflow_eq
    have hy := hr.one_way
    have hb := hp.flow.pool d.token
    have hnn := w'.bank.nonneg d.token d.pool
    have hnonneg' := w.bank.nonneg d.token d.pool
    rw [cash_of_flow hp.flow,if_pos rfl]
    rw [if_pos rfl] at hb
    simp only [Call.Overdraws,Call.draws] at hno
    omega
  · refine checkDefaults_induction (I := fun _ u => 0 ≤ u.cash d d.token) (fun _ _ _ hu => hu) ?_
      hw.sound ht hc
    rintro id _ u u' hu ⟨old,ho,-,-,hp⟩ huc
    have hl := (hu.loan id old ho).collateralAmount_nonneg
    rw [cash_of_flow hp.flow,if_pos rfl]
    simp only [recoveryAmounts]
    omega

lemma Invocation.cash_nonneg (i : Invocation d) (hw : w.InOrder d) (hc : 0 ≤ w.cash d d.token)
    (hn : ¬ i.call.Overdraws d w) (h : i.call.exec d i.env w = .ok w') : 0 ≤ w'.cash d d.token := by
  obtain ⟨_,call,he,_⟩ := i
  cases call with
  | pool =>
    simp only [Call.exec,eq_ok] at h
    obtain ⟨_,hp,rfl⟩ := h
    exact PoolCall.cash_nonneg hw he hc hn hp
  | loan => exact LoanCall.cash_nonneg hw he hc hn h
  | setting =>
    simp only [Call.exec,eq_ok] at h
    obtain ⟨_,-,rfl⟩ := h
    exact hc

/-- **Losses**: after every run in which no call pays out unsolicited tokens, the managed assets are
at least what approved loans have still to repay, and no call of the manager finds a loss that
exceeds them. -/
theorem losses_bookable (g : Genesis d) (is : List (Invocation d))
    (his : (protocol d).Along (fun w i => ¬ i.call.Overdraws d w) g.world is) :
    let w := g.after is
    (w.manager.loans.sumBy fun _ loan =>
      if loan.status = .Approved then loan.amount - loan.principalPaid else 0) ≤
        w.pool.totalManagedAssets d.token ∧
    ∀ (env : Env) (c : LoanCall),
      c.exec d env w ≠ .error (.panic "loan loss exceeds managed assets") := by
  have hs : 0 ≤ g.world.cash d d.token := by
    simp [World.cash,World.donatedToPool,g.balance_pool,Bank.total,g.log]
  have hr := Transactional.along_induction (S := protocol d)
    (I := fun u => u.InOrder d ∧ 0 ≤ u.cash d d.token)
    (fun u i u' hu hno h => ⟨i.inOrder hu.1 h,i.cash_nonneg hu.1 hu.2 hno h⟩)
    ⟨⟨g.world_sound,g.world_balanced⟩,hs⟩ his
  obtain ⟨hw,hc⟩ := hr
  exact ⟨hw.receivables_le hc,fun env c => c.never hw fun _ => hc⟩

/-- The borrower sends 100 to the pool, and the provider redeems 4000 of the 5000 that the loan
left. -/
theorem losses_bookable_small :
    let w := Genesis.small.after (Genesis.lent ++
      [.small 1 (.pool (.transfer ⟨3⟩ ⟨6⟩ ⟨1⟩ 100)) nofun,
        .small 1 (.pool (.emergencyWithdraw ⟨5⟩ ⟨3⟩ 4000 0)) nofun])
    w.pool.totalManagedAssets ⟨3⟩ = 6000 ∧
      (w.manager.loans.sumBy fun _ loan =>
        if loan.status = .Approved then loan.amount - loan.principalPaid else 0) ≤
          w.pool.totalManagedAssets ⟨3⟩ ∧
      ∀ (env : Env) (c : LoanCall),
        c.exec .small env w ≠ .error (.panic "loan loss exceeds managed assets") :=
  ⟨by decide +kernel,losses_bookable _ _ (by decide +kernel)⟩

/-- The provider redeems what stands for the principal, and the default cannot be recorded. -/
theorem loss_exceeds_managed_assets :
    let w := Genesis.small.after (Genesis.lent ++
      [.small 1 (.pool (.transfer ⟨3⟩ ⟨6⟩ ⟨1⟩ 5000)) nofun,
        .small 50000 (.pool (.withdraw ⟨5⟩ ⟨3⟩ 10000 0)) nofun])
    w.manager.loans.lookup 1 = some Loan.small ∧ w.pool.totalManagedAssets ⟨3⟩ = 0 ∧
      LoanCall.exec .small (.small 50000) w (.checkDefault 1) =
        .error (.panic "loan loss exceeds managed assets") := by
  intro w
  refine ⟨by decide +kernel,by decide +kernel,?_⟩
  rw [← map_eq_error (f := fun _ => ())]
  decide +kernel

lemma Settled.backed {token gain loss p p'}
    (h : Settled token gain loss p p') (hb : p.toBooks.Backed)
    (hs : loss ≤ p.surplus token) : p'.toBooks.Backed := by
  obtain ⟨q,hg,hl⟩ := h
  have hq : q.toBooks.Backed := by
    rw [hg.books]
    refine hb.post hg.admissible fun t amt he => ?_
    unfold gainEntry at he
    split at he <;> cases he
  have hn : 0 ≤ gain := by
    have ha := hg.admissible
    unfold gainEntry at ha
    split at ha
    · next hz => omega
    · exact ha.1.le
  rw [hl.books]
  refine hq.post hl.admissible fun t amt he => ?_
  unfold lossEntry at he
  split at he <;> cases he
  unfold Books.surplus at hs ⊢
  rw [hg.managed_gainEntry,if_pos rfl,hg.books,totalShares_gainEntry]
  omega

lemma World.defaultLoss_nonneg (id) : 0 ≤ w.defaultLoss env id := by
  unfold defaultLoss
  split
  · exact le_refl 0
  split
  · exact le_max_left 0 _
  · exact le_refl 0

lemma World.sum_defaultLoss {id new x} (env) (ids : List Nat)
    (hp : Posting d id (some new) x w w') (hw : new.status ≠ .Approved) :
    w.defaultLoss env id + ∑ j ∈ ids.toFinset, w'.defaultLoss env j =
    ∑ j ∈ (id :: ids).toFinset, w.defaultLoss env j := by
  have hs : w'.defaultLoss env id = 0 := by simp [defaultLoss,hp.loans.lookup_self,hw]
  have ho : ∀ j ∈ ids.toFinset.erase id, w'.defaultLoss env j = w.defaultLoss env j := by
    intro j hj
    unfold defaultLoss LoanManager.isPastDue LoanManager.defaultEnds
    rw [hp.loans.lookup_ne (ne_of_mem_erase hj),hp.settings]
  rw [List.toFinset_cons,← add_sum_erase _ _ (mem_insert_self id ids.toFinset),
    erase_insert_eq_erase,← sum_erase _ hs,sum_congr rfl ho]

lemma backed_of_checkDefaults {ids : List Nat} {n} (hw : w.Sound d) (hb : w.pool.toBooks.Backed)
    (hs : ∑ id ∈ ids.toFinset, w.defaultLoss env id ≤ w.pool.surplus d.token)
    (h : LoanManager.checkDefaults d env ids w = .ok (w',n)) : w'.pool.toBooks.Backed := by
  refine (checkDefaults_induction (I := fun rest u => u.pool.toBooks.Backed ∧
    ∑ id ∈ rest.toFinset, u.defaultLoss env id ≤ u.pool.surplus d.token) ?_ ?_ hw h ⟨hb,hs⟩).1
  · rintro id rest u ⟨hu,hl⟩
    refine ⟨hu,le_trans (sum_le_sum_of_subset_of_nonneg ?_ ?_) hl⟩
    · rw [List.toFinset_cons]
      exact subset_insert id _
    · exact fun j _ _ => defaultLoss_nonneg j
  · rintro id rest u u' hu ⟨old,ho,ha,hd,hp⟩ ⟨hk,hl⟩
    have hsm := sum_defaultLoss env rest hp (by simp)
    have hsl := defaultLoss_eq ho ha hd
    have hr : 0 ≤ ∑ j ∈ rest.toFinset, u'.defaultLoss env j :=
      sum_nonneg fun j _ => defaultLoss_nonneg j
    have hm := hp.settled.managed d.token
    have hh := congrFun hp.settled.totalShares d.token
    refine ⟨hp.settled.backed hk ?_,?_⟩
    · simp only [recoveryAmounts,Loan.shortfall] at hsl ⊢
      omega
    · rw [if_pos rfl] at hm
      unfold Books.surplus at hl ⊢
      simp only [recoveryAmounts,Loan.shortfall] at hsl hm
      omega

lemma LoanCall.backed {c : LoanCall} (hw : w.Sound d) (he : env.External d)
    (hb : w.pool.toBooks.Backed) (hl : c.writeOff env w ≤ w.pool.surplus d.token)
    (h : c.exec d env w = .ok w') : w'.pool.toBooks.Backed := by
  rcases posting_or_batch hw he h with ⟨id,new,x,hp,hr⟩ | ⟨ids,n,rfl,ht⟩
  · exact hp.settled.backed hb (le_trans hr.loss_le hl)
  · exact backed_of_checkDefaults hw hb hl ht

def Call.Absorbable (d : Deployment) (env : Env) (w : World) : Call → Prop
  | .loan c => c.writeOff env w ≤ w.pool.surplus d.token
  | _ => True

instance (d : Deployment) (env : Env) (w : World) (c : Call) :
    Decidable (c.Absorbable d env w) := by
  cases c <;> first | exact isTrue trivial | exact inferInstanceAs (Decidable (_ ≤ _))

lemma Invocation.backed (i : Invocation d) (hw : w.InOrder d) (hb : w.pool.toBooks.Backed)
    (hl : i.call.Absorbable d i.env w) (h : i.call.exec d i.env w = .ok w') :
    w'.pool.toBooks.Backed := by
  obtain ⟨_,call,hv,_⟩ := i
  cases call with
  | pool =>
    simp only [Call.exec,eq_ok] at h
    obtain ⟨_,hp,rfl⟩ := h
    obtain ⟨_,hm,ha,hk⟩ := PoolCall.posts hp
    rw [hk]
    exact hb.post ha fun token amt he =>
      absurd he (hm.ne_lose hv hw.sound.loanManager hp token amt)
  | loan => exact LoanCall.backed hw.sound hv hb hl h
  | setting =>
    simp only [Call.exec,eq_ok] at h
    obtain ⟨_,-,rfl⟩ := h
    exact hb

inductive PoolCall.Redeems : PoolCall → Prop
  | withdraw (provider token : Address) (shares minAssetsOut : Int) :
    Redeems (.withdraw provider token shares minAssetsOut)
  | emergencyWithdraw (provider token : Address) (shares minAssetsOut : Int) :
    Redeems (.emergencyWithdraw provider token shares minAssetsOut)

section
variable {pw : PoolWorld} {p : LendingPool} {self provider token : Address}
  {shares minAssetsOut : Int}

lemma never_insufficient_assertCircuitOk {fnSym} :
    Never (.pool .InsufficientLiquidity) (p.assertCircuitOk self env fnSym) := by
  unfold assertCircuitOk
  split <;> simp

lemma never_insufficient_assertWithdrawalCooldownElapsed : Never (.pool .InsufficientLiquidity)
    (p.assertWithdrawalCooldownElapsed env provider token) := by
  unfold assertWithdrawalCooldownElapsed
  split
  · simp
  · split <;> simp

lemma never_insufficient_redeemShares (hb : pw.pool.toBooks.Backed)
    (hh : pw.pool.totalManagedAssets token ≤ pw.bank.balance token self) :
    Never (.pool .InsufficientLiquidity)
    (LendingPool.redeemShares self env provider token shares minAssetsOut pw) := by
  simp only [redeemShares,never_bind,ensure_eq_ok]
  refine ⟨never_ensure (by simp),fun _ _ => ⟨never_ensure (by simp),fun _ _ =>
    ⟨never_ensure (by simp),fun _ hs => ⟨?_,fun ast ha => ⟨never_ensure (by simp),
      fun _ _ => ⟨never_ensure (by simp),fun _ _ => ⟨?_,fun _ _ => ?_⟩⟩⟩⟩⟩⟩⟩
  · simp [calcAssetsToRedeem]
  · exact never_ensure_of (le_trans (hb.redeemable_le hs ha) hh)
  · simp [Bank.never_transfer]

lemma never_insufficient_locked (hb : pw.pool.toBooks.Backed)
    (hh : pw.pool.totalManagedAssets token ≤ pw.bank.balance token self) :
    Never (.pool .InsufficientLiquidity) (do
      let p ← pw.pool.acquireLock
      let w ← LendingPool.redeemShares self env provider token shares minAssetsOut ⟨p,pw.bank⟩
      pure (⟨w.pool.releaseLock,w.bank⟩ : PoolWorld)) := by
  simp only [acquireLock,never_bind,eq_ok]
  refine ⟨by simp,fun p hp => ⟨?_,fun _ _ => never_pure _ _⟩⟩
  obtain ⟨_,-,_,-,rfl⟩ := hp
  exact never_insufficient_redeemShares hb hh

lemma PoolCall.Redeems.never {c : PoolCall} (hc : c.Redeems) (hb : pw.pool.toBooks.Backed)
    (hh : ∀ token, pw.pool.totalManagedAssets token ≤ pw.bank.balance token self) :
    Never (.pool .InsufficientLiquidity) (c.exec self env pw) := by
  cases hc with
  | withdraw provider token =>
    refine (never_ensure (by simp)).bind fun _ _ => ?_
    refine (never_ensure (by simp)).bind fun _ _ => ?_
    refine never_insufficient_assertCircuitOk.bind fun _ _ => ?_
    refine never_insufficient_assertWithdrawalCooldownElapsed.bind fun _ _ => ?_
    exact never_insufficient_locked hb (hh token)
  | emergencyWithdraw provider token =>
    refine (never_ensure (by simp)).bind fun _ _ => ?_
    refine never_insufficient_assertCircuitOk.bind fun _ _ => ?_
    exact never_insufficient_locked hb (hh token)

end

lemma World.InOrder.managed_le_balance (hw : w.InOrder d)
    (hn : ∀ id loan, w.manager.loans.lookup id = some loan → loan.status ≠ .Approved)
    (token) : w.pool.totalManagedAssets token ≤ w.bank.balance token d.pool := by
  have hr : (w.manager.loans.sumBy fun _ loan => loan.receivable) = 0 :=
    Storage.sumBy_eq_zero fun id loan hl => if_neg (hn id loan hl)
  have hln := hw.balanced.netLent token
  have hd : 0 ≤ w.donatedToPool d token := Bank.total_nonneg _ _
  rw [hr,ite_self] at hln
  unfold netLent cash at hln
  omega

lemma World.InOrder.not_approved (hw : w.InOrder d)
    (h : w.manager.totalOutstanding d.token = 0) (id loan)
    (hl : w.manager.loans.lookup id = some loan) : loan.status ≠ .Approved := by
  intro ha
  have he := hw.amount_le hl ha
  have hp := (hw.sound.loan id loan hl).amount_pos
  omega

/-- **Claims**: while every loss is at most what the managed assets exceed the shares by, the claims
of all providers are covered. -/
theorem claims_covered (self : Address) (bank : Bank) (cs : List (Env × PoolCall))
    (g : Genesis d) (is rs : List (Invocation d)) :
    ((poolSystem self).Along (fun w c => c.2.Absorbable w) (PoolWorld.deployed bank) cs →
      let w := (poolSystem self).run (PoolWorld.deployed bank) cs
      ∀ token, w.pool.claims token ≤ w.pool.totalManagedAssets token) ∧
    ((protocol d).Along (fun w i => i.call.Absorbable d i.env w) g.world is →
      (∀ id loan, (g.after is).manager.loans.lookup id = some loan → loan.status ≠ .Approved) →
      (∀ r ∈ rs, ∃ c, r.call = .pool c ∧ c.Redeems) →
      let w := g.after (is ++ rs)
      (∀ token, w.pool.claims token ≤ w.pool.totalManagedAssets token ∧
        0 ≤ w.pool.totalManagedAssets token) ∧
      ∀ (env : Env) (c : PoolCall), c.Redeems →
        c.exec d.pool env w.toPoolWorld ≠ .error (.pool .InsufficientLiquidity)) := by
  refine ⟨fun h token => (backed_along self bank h).claims_le token,?_⟩
  intro his hn hrs w
  have hb : (g.after is).pool.toBooks.Backed :=
    (Transactional.along_induction (S := protocol d)
      (I := fun u => u.InOrder d ∧ u.pool.toBooks.Backed)
      (fun u i u' hu ho h => ⟨i.inOrder hu.1 h,i.backed hu.1 hu.2 ho h⟩)
      ⟨⟨g.world_sound,g.world_balanced⟩,by rw [g.books_eq]; exact Books.backed_empty⟩ his).2
  -- the redemptions change no record of a loan
  have hrn : w.InOrder d ∧ w.pool.toBooks.Backed ∧ w.manager = (g.after is).manager := by
    have hw : w = (protocol d).run (g.after is) rs := Transactional.run_append _ is rs
    rw [hw]
    refine Transactional.along_induction (S := protocol d)
      (P := fun _ r => ∃ c, r.call = .pool c ∧ c.Redeems)
      (I := fun u => u.InOrder d ∧ u.pool.toBooks.Backed ∧ u.manager = (g.after is).manager) ?_
      ⟨g.inOrder is,hb,rfl⟩ (always_of_forall fun _ r hr => hrs r hr)
    rintro u r u' ⟨hu,hub,hum⟩ ⟨c,hl,-⟩ h
    have ha : r.call.Absorbable d r.env u := by
      rw [hl]
      trivial
    refine ⟨r.inOrder hu h,r.backed hu hub ha h,?_⟩
    simp only [protocol,hl,Call.exec,eq_ok] at h
    obtain ⟨_,-,rfl⟩ := h
    exact hum
  obtain ⟨hw,hwb,hwm⟩ := hrn
  refine ⟨fun token => ⟨hwb.claims_le token,?_⟩,fun env c hc => ?_⟩
  · exact le_trans (hwb.totalShares_nonneg token) (hwb.shares_le token)
  · refine hc.never hwb (hw.managed_le_balance ?_)
    rw [hwm]
    exact hn

/-- A yield of 1000 absorbs a loss of 600. In the protocol, the loan is repaid and the provider
redeems part of the shares. -/
theorem claims_covered_small :
    (let w := (poolSystem ⟨1⟩).run (PoolWorld.deployed .small)
        [(.small 1, .initializePool ⟨4⟩),(.small 1, .setLoanManager ⟨4⟩),
          (.small 1, .deposit ⟨5⟩ ⟨3⟩ 10000 0),(.small 1, .recordLoanYield ⟨3⟩ 1000),
          (.small 1, .recordLoanLoss ⟨3⟩ 600)]
     w.pool.totalManagedAssets ⟨3⟩ = 10400 ∧
        w.pool.claims ⟨3⟩ ≤ w.pool.totalManagedAssets ⟨3⟩) ∧
    let w := Genesis.small.after (Genesis.lent ++ [.small 1 (.loan (.repay ⟨6⟩ 1 5000)) nofun] ++
      [.small 1 (.pool (.emergencyWithdraw ⟨5⟩ ⟨3⟩ 4000 0)) nofun])
    w.pool.totalManagedAssets ⟨3⟩ = 6000 ∧
      ∀ (env : Env) (c : PoolCall), c.Redeems →
        c.exec ⟨1⟩ env w.toPoolWorld ≠ .error (.pool .InsufficientLiquidity) := by
  refine ⟨⟨by decide +kernel,(claims_covered ⟨1⟩ .small _ .small [] []).1 (by decide +kernel) ⟨3⟩⟩,
    by decide +kernel,
    ((claims_covered ⟨1⟩ .small [] .small _ _).2 (by decide +kernel) ?_ ?_).2⟩
  · exact (Genesis.small.inOrder _).not_approved (by decide +kernel)
  · intro r hr
    rw [List.mem_singleton.mp hr]
    exact ⟨_,rfl,.emergencyWithdraw ..⟩

/-- After a default the shares are worth 5454 and 5000 is left: redeeming takes more than is
managed. -/
theorem claims_not_covered :
    let w := Genesis.small.after
      (Genesis.lent ++ [.small 50000 (.loan (.checkDefault 1)) nofun])
    (∀ id loan, w.manager.loans.lookup id = some loan → loan.status ≠ .Approved) ∧
      w.pool.totalManagedAssets ⟨3⟩ = 5000 ∧ w.pool.claims ⟨3⟩ = 5454 ∧
      PoolCall.exec ⟨1⟩ (.small 50000) w.toPoolWorld (.withdraw ⟨5⟩ ⟨3⟩ 10000 0) =
        .error (.pool .InsufficientLiquidity) ∧
      (Genesis.small.after (Genesis.lent ++ [.small 50000 (.loan (.checkDefault 1)) nofun,
        .small 50000 (.pool (.transfer ⟨3⟩ ⟨6⟩ ⟨1⟩ 1000)) nofun,
        .small 50000 (.pool (.withdraw ⟨5⟩ ⟨3⟩ 10000 0)) nofun])).pool.totalManagedAssets ⟨3⟩ =
          -454 := by
  intro w
  refine ⟨(Genesis.small.inOrder _).not_approved (by decide +kernel),by decide +kernel,
    by decide +kernel,?_,by decide +kernel⟩
  rw [← map_eq_error (f := fun _ => ())]
  decide +kernel

end DukaPay
