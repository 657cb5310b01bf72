import DukaPay.Contractlib.Ledger
import DukaPay.LendingPool.Dealing

/-! A deposit mints shares exactly when it is worth at least one share at the exact price. -/
namespace DukaPay
open Contractlib Function LendingPool Transactional

namespace LendingPool

def MintFits (amount assets shares : Int) : Prop :=
  i128.Fits (shares + 1000) ∧ i128.Fits (assets + 1000) ∧ i128.Fits (amount * (shares + 1000))

lemma calcSharesToMint_eq_ok {x ast sh minted} (ham : 0 ≤ x)
    (ha : 0 < ast + 1000) (hs : 0 < sh + 1000) : calcSharesToMint x ast sh = .ok minted ↔
    MintFits x ast sh ∧ x * (sh + 1000) / (ast + 1000) = minted := by
  constructor
  · intro h
    have he := eq_of_calcSharesToMint ha h
    simp only [calcSharesToMint,eq_ok] at h
    obtain ⟨_,⟨hh,rfl⟩,_,⟨has,rfl⟩,_,⟨hp,rfl⟩,-⟩ := h
    exact ⟨⟨hh,has,hp⟩,he.symm⟩
  · rintro ⟨⟨hh,has,hp⟩,rfl⟩
    simp only [calcSharesToMint,eq_ok,okOr_eq_ok]
    exact ⟨_,⟨hh,rfl⟩,_,⟨has,rfl⟩,_,⟨hp,rfl⟩, Money.roundDiv_of_nonneg (mul_nonneg ham hs.le) hp ha⟩

structure Admits (self : Address) (env : Env) (provider token : Address) (amount : Int)
    (p : LendingPool) : Prop where
  authorized : env.Authorized provider
  notPaused : p.assertNotPaused = .ok ()
  circuit : p.assertCircuitOk self env "deposit" = .ok ()
  unlocked : p.reentrancyLock = false ∧ p.callDepth < 3
  underCap : p.assertUnderMaxPoolSize token amount = .ok ()

-- What `deposit` calls, apart from the check on the minted shares.
section
variable {self : Address} {env : Env} {p : LendingPool} {token : Address}

@[simp] lemma assertCircuitOk_ne_zeroShares (fnSym) :
    p.assertCircuitOk self env fnSym ≠ .error (.pool .ZeroShares) := by
  unfold assertCircuitOk
  split <;> simp [pure,Except.pure]

@[simp] lemma acquireLock_ne_zeroShares : p.acquireLock ≠ .error (.pool .ZeroShares) := by
  simp [acquireLock,bind_eq_error,pure,Except.pure]

@[simp] lemma assertUnderMaxPoolSize_ne_zeroShares (x) :
    p.assertUnderMaxPoolSize token x ≠ .error (.pool .ZeroShares) := by
  unfold assertUnderMaxPoolSize
  split <;> simp [bind_eq_error,expect,pure,Except.pure]

@[simp] lemma calcSharesToMint_ne_zeroShares (x ast sh) :
    calcSharesToMint x ast sh ≠ .error (.pool .ZeroShares) := by
  simp [calcSharesToMint,bind_eq_error,expect]

@[simp] lemma countDepositor_ne_zeroShares (pr) :
    p.countDepositor pr token ≠ .error (.pool .ZeroShares) := by
  unfold countDepositor
  split <;> simp [bind_eq_error,expect,pure,Except.pure]

@[simp] lemma transfer_ne_zeroShares (x) (b : Bank) :
    b.transfer env x ≠ .error (.pool .ZeroShares) := by
  simp only [Bank.transfer,bind_eq_error,ensure_eq_error,reduceCtorEq,and_false,false_or,
    ensure_eq_ok,exists_const,ne_eq]
  split <;> simp

end

lemma deposit_eq_zeroShares {self env pr token x w} : deposit self env pr token x 0 w =
    .error (.pool .ZeroShares) ↔ w.pool.Admits self env pr token x ∧ 0 < x ∧ ∃ mtd,
    calcSharesToMint x (w.pool.totalManagedAssets token) (w.pool.totalShares token) = .ok mtd ∧
    mtd ≤ 0 := by
  simp only [deposit,bind_eq_error,Env.requireAuth,assertNotPaused,ensure_eq_error,ensure_eq_ok,
    Unique.exists_iff,reduceCtorEq,assertCircuitOk_ne_zeroShares,acquireLock_ne_zeroShares,
    assertUnderMaxPoolSize_ne_zeroShares,calcSharesToMint_ne_zeroShares,
    countDepositor_ne_zeroShares,transfer_ne_zeroShares,expect,orFail_eq_error,Fault.pool.injEq,
    and_false,false_or,pure,Except.pure,exists_false,or_false,and_true,not_lt]
  constructor
  · rintro ⟨ha,hs,hc,p,hp,ham,-,hca,mtd,hm,hl⟩
    simp only [acquireLock,eq_ok] at hp
    obtain ⟨hk,hd,rfl⟩ := hp
    exact ⟨⟨ha,ensure_eq_ok.mpr hs,hc,⟨hk,hd⟩,hca⟩,ham,mtd,hm,hl⟩
  · rintro ⟨⟨ha,hs,hc,⟨hk,hd⟩,hca⟩,ham,mtd,hm,hl⟩
    have hp : w.pool.acquireLock =
        .ok { w.pool with reentrancyLock := true, callDepth := w.pool.callDepth + 1 } := by
      simp only [acquireLock,eq_ok]
      exact ⟨hk,hd,trivial⟩
    exact ⟨ha,ensure_eq_ok.mp hs,hc,_,hp,ham,le_refl 0,hca,mtd,hm,hl⟩

end LendingPool

/-- **Deposits that mint**: after every run, the mint formula gives shares for a positive amount
exactly when the amount is worth a share at the exact price and the arithmetic stays in range. -/
theorem deposit_mints_iff (self : Address) (bank : Bank) (cs : List (Env × PoolCall)) (env : Env)
    (provider token : Address) (amount : Int) :
    let w := (poolSystem self).run (PoolWorld.deployed bank) cs
    let assets := w.pool.totalManagedAssets token
    let shares := w.pool.totalShares token
    (0 < amount →
      ((∃ minted, LendingPool.calcSharesToMint amount assets shares = .ok minted ∧ 0 < minted) ↔
        LendingPool.MintFits amount assets shares ∧ assets + 1000 ≤ amount * (shares + 1000))) ∧
      (LendingPool.deposit self env provider token amount 0 w = .error (.pool .ZeroShares) ↔
        w.pool.Admits self env provider token amount ∧ 0 < amount ∧
          LendingPool.MintFits amount assets shares ∧
            amount * (shares + 1000) < assets + 1000) := by
  intro w assets shares
  have hw : w.pool.toBooks.Solvent := solvent_run self bank cs
  have ha : 0 < assets + 1000 := hw.assets_pos token
  have hs : 0 < shares + 1000 := by
    have := hw.totalShares_nonneg token
    omega
  refine ⟨fun hamount => ?_,?_⟩
  · constructor
    · rintro ⟨minted,h,hp⟩
      obtain ⟨hfits,rfl⟩ := (LendingPool.calcSharesToMint_eq_ok hamount.le ha hs).mp h
      refine ⟨hfits,?_⟩
      have ho : 1 ≤ amount * (shares + 1000) / (assets + 1000) := hp
      rwa [Int.le_ediv_iff_mul_le ha,one_mul] at ho
    · rintro ⟨hfits,hr⟩
      refine ⟨_,(LendingPool.calcSharesToMint_eq_ok hamount.le ha hs).mpr ⟨hfits,rfl⟩,?_⟩
      rwa [← Int.add_one_le_iff,zero_add,Int.le_ediv_iff_mul_le ha,one_mul]
  · rw [LendingPool.deposit_eq_zeroShares]
    constructor
    · rintro ⟨hd,hamount,minted,h,hle⟩
      obtain ⟨hfits,rfl⟩ := (LendingPool.calcSharesToMint_eq_ok hamount.le ha hs).mp h
      refine ⟨hd,hamount,hfits,?_⟩
      have hlt : amount * (shares + 1000) / (assets + 1000) < 1 := Int.lt_add_one_of_le hle
      rwa [Int.ediv_lt_iff_lt_mul ha,one_mul] at hlt
    · rintro ⟨hd,hamount,hfits,hlt⟩
      refine ⟨hd,hamount,_,(LendingPool.calcSharesToMint_eq_ok hamount.le ha hs).mpr ⟨hfits,rfl⟩,?_⟩
      apply Int.le_of_lt_add_one
      rwa [Int.ediv_lt_iff_lt_mul ha,zero_add,one_mul]

/-- One token is deposited and a yield of 1000 is distributed. A further deposit of one token is
then worth less than a share. -/
theorem deposit_mints_nothing :
    let w := (poolSystem ⟨1⟩).run (PoolWorld.deployed .small)
      [(.small 1, .deposit ⟨5⟩ ⟨3⟩ 1 0),(.small 1, .distributeYield ⟨6⟩ ⟨3⟩ 1000)]
    LendingPool.calcSharesToMint 1 (w.pool.totalManagedAssets ⟨3⟩) (w.pool.totalShares ⟨3⟩) =
        .ok 0 ∧
      LendingPool.deposit ⟨1⟩ (.small 1) ⟨6⟩ ⟨3⟩ 1 0 w = .error (.pool .ZeroShares) := by
  intro w
  refine ⟨by decide +kernel,?_⟩
  rw [← map_eq_error (f := fun _ => ())]
  decide +kernel

def PoolEvent.dealing (token : Address) : PoolEvent → Option (Address × Int)
  | .Deposit provider t amount _ => if t = token then some (provider,amount) else none
  | .Withdraw provider t amount _ => if t = token then some (provider,-amount) else none
  | _ => none

namespace LendingPool

def dealings (p : LendingPool) (token : Address) : List (Address × Int) :=
  p.events.filterMap fun e => e.2.dealing token

def principal (p : LendingPool) (provider token : Address) : Int :=
  Ledger.account provider (p.dealings token)

def untouchedDeposits (p : LendingPool) (token : Address) : Int :=
  Ledger.untouched (p.dealings token)

variable {self : Address} {env : Env} {w w' : PoolWorld} {p : LendingPool}

@[simp] lemma dealings_publish (e) (p : LendingPool) (token) :
    (p.publish env e).dealings token = (e.dealing token).toList ++ p.dealings token := by
  unfold dealings publish
  cases h : e.dealing token <;> simp [h]

@[simp] lemma dealings_releaseLock (p : LendingPool) (token) :
    p.releaseLock.dealings token = p.dealings token := by
  unfold releaseLock
  split <;> rfl

lemma dealings_of_deposit {pr token x minSharesOut}
    (h : deposit self env pr token x minSharesOut w = .ok w') : (∀ t, w'.pool.dealings t =
    (if token = t then some (pr,x) else none).toList ++ w.pool.dealings t) ∧
    i128.Fits (w.pool.totalDeposits token + x) ∧ (0 < w.pool.maxPoolSize token →
    w.pool.totalDeposits token + x ≤ w.pool.maxPoolSize token) := by
  simp only [deposit,eq_ok] at h
  obtain ⟨-,-,-,_,hp,-,-,hc,_,-,-,-,_,hp2,_,-,_,-,_,⟨hf,rfl⟩,_,-,_,-,rfl⟩ := h
  cases eq_of_acquireLock hp
  cases eq_of_countDepositor hp2
  refine ⟨fun t => ?_,hf,fun hm => ?_⟩
  · simp only [dealings_releaseLock,dealings_publish,PoolEvent.dealing]
    rfl
  · simp only [assertUnderMaxPoolSize,if_pos hm,eq_ok] at hc
    obtain ⟨_,⟨-,rfl⟩,hl⟩ := hc
    exact hl

lemma dealings_of_redeemShares {pr token sh minAssetsOut}
    (h : redeemShares self env pr token sh minAssetsOut w = .ok w') (t) :
    w'.pool.dealings t = (if token = t then some (pr,-w.pool.redeemable token sh)
    else none).toList ++ w.pool.dealings t := by
  simp only [redeemShares,eq_ok] at h
  obtain ⟨-,-,-,_,ha,-,-,-,_,-,_,-,_,-,_,-,rfl⟩ := h
  rw [Books.redeemable_eq ha]
  simp only [dealings_publish,PoolEvent.dealing,setRemainingShares_eq]
  rfl

end LendingPool

namespace PoolCall

/-- The provider and the signed amount that a call publishes for `token` when it returns. -/
def dealing (token : Address) (w : PoolWorld) : PoolCall → Option (Address × Int)
  | .deposit provider t amount _ => if t = token then some (provider,amount) else none
  | .withdraw provider t shares _ =>
    if t = token then some (provider,-w.pool.redeemable t shares) else none
  | .emergencyWithdraw provider t shares _ =>
    if t = token then some (provider,-w.pool.redeemable t shares) else none
  | _ => none

variable {self : Address} {env : Env} {w w' : PoolWorld} {c : PoolCall}

lemma records (h : c.exec self env w = .ok w') (token) :
    w'.pool.dealings token = (c.dealing token w).toList ++ w.pool.dealings token := by
  cases c with
  | deposit => exact (LendingPool.dealings_of_deposit h).1 token
  | withdraw =>
    simp only [exec,LendingPool.withdraw,eq_ok] at h
    obtain ⟨-,-,-,-,p,hp,w1,hw1,rfl⟩ := h
    cases LendingPool.eq_of_acquireLock hp
    rw [LendingPool.dealings_releaseLock]
    exact LendingPool.dealings_of_redeemShares hw1 token
  | emergencyWithdraw =>
    simp only [exec,LendingPool.emergencyWithdraw,eq_ok] at h
    obtain ⟨-,-,p,hp,w1,hw1,rfl⟩ := h
    cases LendingPool.eq_of_acquireLock hp
    rw [LendingPool.dealings_releaseLock]
    exact LendingPool.dealings_of_redeemShares hw1 token
  | distributeYield «from» t amount =>
    simp only [exec,LendingPool.distributeYield,eq_ok] at h
    obtain ⟨-,-,-,p,hp,ha,upd,-,bank,-,p2,hp2,rfl⟩ := h
    cases LendingPool.eq_of_acquireLock hp
    cases LendingPool.eq_of_yieldDistributed ha hp2
    simp only [LendingPool.dealings_releaseLock,LendingPool.dealings_publish,PoolEvent.dealing]
    rfl
  | recordLoanYield t amount =>
    simp only [exec,LendingPool.recordLoanYield,eq_ok] at h
    obtain ⟨p,⟨-,_,h⟩,rfl⟩ := h
    split at h
    · cases h
      rfl
    · next hz =>
      simp only [eq_ok] at h
      obtain ⟨upd,-,p2,hp2,rfl⟩ := h
      have hs : 0 < amount := by omega
      cases LendingPool.eq_of_yieldDistributed hs hp2
      rfl
  | recordLoanLoss =>
    simp only [exec,LendingPool.recordLoanLoss,eq_ok] at h
    obtain ⟨p,⟨-,-,h⟩,rfl⟩ := h
    split at h
    · cases h
      rfl
    simp only [eq_ok] at h
    obtain ⟨upd,-,rfl⟩ := h
    rfl
  | disburse =>
    obtain ⟨-,-,hl,-⟩ := LendingPool.moved_of_disburse h
    rw [hl]
    rfl
  | adjustOutstanding =>
    simp only [exec,LendingPool.adjustOutstanding,eq_ok] at h
    obtain ⟨p,⟨_,-,-,-,h⟩,rfl⟩ := h
    split at h
    · cases h
      rfl
    simp only [eq_ok] at h
    obtain ⟨upd,-,-,rfl⟩ := h
    rfl
  | transfer =>
    simp only [exec,eq_ok] at h
    obtain ⟨bank,-,rfl⟩ := h
    rfl
  | initializePool =>
    simp only [exec,LendingPool.initializePool,eq_ok] at h
    obtain ⟨p,⟨-,rfl⟩,rfl⟩ := h
    rfl
  | acceptAdmin =>
    simp only [exec,LendingPool.acceptAdmin,eq_ok] at h
    obtain ⟨p,⟨_,-,_,-,-,rfl⟩,rfl⟩ := h
    rfl
  | setMaxPoolSize _ _ | setWithdrawalCooldown _ =>
    simp only [exec,LendingPool.setMaxPoolSize,LendingPool.setWithdrawalCooldown,eq_ok] at h
    obtain ⟨p,⟨_,-,-,-,rfl⟩,rfl⟩ := h
    rfl
  | proposeAdmin _ | setAdmin _ | pause | unpause | setCircuitBreaker _ | setLoanManager _ =>
    simp only [exec,LendingPool.proposeAdmin,LendingPool.setAdmin,LendingPool.pause,
      LendingPool.unpause,LendingPool.setCircuitBreaker,LendingPool.setLoanManager,eq_ok] at h
    obtain ⟨p,⟨_,-,-,rfl⟩,rfl⟩ := h
    rfl

def WithinPrincipal (token : Address) (w : PoolWorld) : PoolCall → Prop
  | .withdraw provider t shares _ =>
    t = token → w.pool.redeemable t shares ≤ w.pool.principal provider t
  | .emergencyWithdraw provider t shares _ =>
    t = token → w.pool.redeemable t shares ≤ w.pool.principal provider t
  | _ => True

instance (token : Address) (w : PoolWorld) : (c : PoolCall) →
    Decidable (c.WithinPrincipal token w)
  | .withdraw .. | .emergencyWithdraw .. => inferInstanceAs (Decidable (_ → _))
  | .initializePool .. | .deposit .. | .distributeYield .. | .recordLoanYield ..
  | .recordLoanLoss .. | .disburse .. | .setMaxPoolSize .. | .setWithdrawalCooldown ..
  | .proposeAdmin .. | .acceptAdmin | .setAdmin .. | .pause | .unpause | .setCircuitBreaker ..
  | .setLoanManager .. | .adjustOutstanding .. | .transfer .. => isTrue trivial

inductive Counted (token : Address) (w w' : PoolWorld) (c : PoolCall) : Prop
  | none (hdealing : c.dealing token w = none)
    (hcount : w'.pool.totalDeposits token = w.pool.totalDeposits token)
  | deposit (provider : Address) (amount : Int) (hamount : 0 < amount)
    (hdealing : c.dealing token w = some (provider, amount))
    (hcount : w'.pool.totalDeposits token = w.pool.totalDeposits token + amount)
    (hfits : i128.Fits (w.pool.totalDeposits token + amount))
    (hcap : 0 < w.pool.maxPoolSize token →
      w.pool.totalDeposits token + amount ≤ w.pool.maxPoolSize token)
  | redemption (provider : Address) (assets : Int) (hassets : 0 < assets)
    (hdealing : c.dealing token w = some (provider, -assets))
    (hcount : w'.pool.totalDeposits token = i128.saturatingSub (w.pool.totalDeposits token) assets)
    (hwithin : c.WithinPrincipal token w → assets ≤ w.pool.principal provider token)

lemma counted_none {token} (h : c.exec self env w = .ok w')
    (hc : ∀ e, c.Makes env e → ∀ b : Books, (b.post e).totalDeposits = b.totalDeposits)
    (hd : c.dealing token w = none) : Counted token w w' c := by
  obtain ⟨e,hm,-,hb⟩ := posts h
  refine .none hd ?_
  rw [hb,hc e hm]

lemma counted_redemption {token pr t sh ast}
    (hp : LendingPool.Posted (.burn pr t sh ast) w.pool w'.pool)
    (hd : c.dealing token w = if t = token then some (pr,-w.pool.redeemable t sh) else none)
    (hw : c.WithinPrincipal token w →
    t = token → w.pool.redeemable t sh ≤ w.pool.principal pr t) : Counted token w w' c := by
  obtain ⟨-,-,ha,hc,-⟩ := hp.admissible
  rw [Books.redeemable_eq hc] at hd hw
  obtain rfl | ht := eq_or_ne t token
  · refine .redemption pr ast ha (by rw [hd,if_pos rfl]) ?_ fun h => hw h rfl
    rw [hp.books]
    exact update_self ..
  · refine .none (by rw [hd,if_neg ht]) ?_
    rw [hp.books]
    exact update_of_ne (Ne.symm ht) _ _

lemma counts (h : c.exec self env w = .ok w') (token) : Counted token w w' c := by
  cases c with
  | deposit prov t amt =>
    obtain ⟨-,⟨_,hp⟩,-⟩ := posted_of_deposit h
    obtain ⟨-,hf,hc⟩ := dealings_of_deposit h
    obtain rfl | ht := eq_or_ne t token
    · refine .deposit prov amt hp.admissible.1 (if_pos rfl) ?_ hf hc
      rw [hp.books]
      exact update_self ..
    · refine .none (if_neg ht) ?_
      rw [hp.books]
      exact update_of_ne (Ne.symm ht) _ _
  | withdraw =>
    obtain ⟨-,ast,hp,-⟩ := posted_of_withdraw h
    exact counted_redemption hp rfl id
  | emergencyWithdraw =>
    obtain ⟨-,ast,hp,-⟩ := posted_of_emergencyWithdraw h
    exact counted_redemption hp rfl id
  | recordLoanYield =>
    refine counted_none h (fun e he => ?_) rfl
    simp only [Makes,gainEntry] at he
    subst he
    split <;> exact fun _ => rfl
  | recordLoanLoss =>
    refine counted_none h (fun e he => ?_) rfl
    simp only [Makes,lossEntry] at he
    subst he
    split <;> exact fun _ => rfl
  | adjustOutstanding =>
    refine counted_none h (fun e he => ?_) rfl
    obtain rfl | rfl := he <;> exact fun _ => rfl
  | _ =>
    refine counted_none h (fun e he => ?_) rfl
    subst he
    exact fun _ => rfl

end PoolCall

namespace LendingPool

/-- The count of `token` is the principal of all providers, and nobody was paid more than theirs. -/
structure Covered (token : Address) (p : LendingPool) : Prop where
  total : p.totalDeposits token = Ledger.total (p.dealings token)
  fits : i128.Fits (p.totalDeposits token)
  principal_nonneg : ∀ provider, 0 ≤ p.principal provider token

variable {self : Address} {env : Env} {w w' : PoolWorld} {token : Address} {max : Int}

lemma Covered.step {c : PoolCall} (hw : w.pool.Covered token) (hwi : c.WithinPrincipal token w)
    (h : c.exec self env w = .ok w') : w'.pool.Covered token := by
  have hrc := PoolCall.records h token
  have ht := hw.total
  cases PoolCall.counts h token with
  | none hd hco =>
    rw [hd] at hrc
    have hs : w'.pool.dealings token = w.pool.dealings token := hrc
    refine ⟨by rw [hco,hs,ht],by rw [hco]; exact hw.fits,fun lp => ?_⟩
    unfold principal
    rw [hs]
    exact hw.principal_nonneg lp
  | deposit lp amt hamount hd hco hfits _ =>
    rw [hd] at hrc
    have hc : w'.pool.dealings token = (lp,amt) :: w.pool.dealings token := hrc
    refine ⟨?_,by rwa [hco],fun lp' => ?_⟩
    · rw [hco,hc,Ledger.total_cons,ht,add_comm]
    · have ho := hw.principal_nonneg lp'
      unfold principal at ho ⊢
      rw [hc,Ledger.account_cons]
      split <;> omega
  | redemption lp assets hassets hd hco hr =>
    rw [hd] at hrc
    have hc : w'.pool.dealings token = (lp,-assets) :: w.pool.dealings token := hrc
    have hp := hr hwi
    have ha : w.pool.principal lp token ≤ w.pool.totalDeposits token := by
      rw [ht]
      exact Ledger.account_le_total hw.principal_nonneg lp
    have hh := hw.fits.2
    have hl : i128.lo ≤ 0 := by decide
    -- the payout is covered by the count, so the subtraction does not saturate
    have hx : i128.saturatingSub (w.pool.totalDeposits token) assets =
        w.pool.totalDeposits token - assets := by
      unfold IntType.saturatingSub
      omega
    rw [hx] at hco
    refine ⟨?_,⟨by omega,by omega⟩,fun lp' => ?_⟩
    · rw [hco,hc,Ledger.total_cons,ht]
      omega
    · have ho := hw.principal_nonneg lp'
      unfold principal at ho hp ⊢
      rw [hc,Ledger.account_cons]
      split
      · next he =>
        subst he
        simp only
        omega
      · omega

lemma totalDeposits_le_step {c : PoolCall} (hm : 0 < max)
    (hca : w.pool.maxPoolSize token = max) (hl : w.pool.totalDeposits token ≤ max)
    (h : c.exec self env w = .ok w') : w'.pool.totalDeposits token ≤ max := by
  cases PoolCall.counts h token with
  | none _ hc => rwa [hc]
  | deposit _ _ _ _ hc _ hu =>
    have := hu (by rwa [hca])
    rwa [hc,← hca]
  | redemption _ ast hassets _ hc =>
    have ho : i128.lo ≤ 0 := by decide
    rw [hc]
    unfold IntType.saturatingSub
    omega

end LendingPool

lemma totalDeposits_of_no_dealings (self bank cs token)
    (h : ((poolSystem self).run (PoolWorld.deployed bank) cs).pool.dealings token = []) :
    ((poolSystem self).run (PoolWorld.deployed bank) cs).pool.totalDeposits token = 0 := by
  revert h
  refine run_induction (S := poolSystem self)
    (I := fun w => w.pool.dealings token = [] → w.pool.totalDeposits token = 0) ?_
    (fun _ => rfl) cs
  intro w c w' hw hx hn
  have hr := PoolCall.records hx token
  rw [hn] at hr
  obtain ⟨hd,ho⟩ := List.append_eq_nil_iff.mp hr.symm
  cases PoolCall.counts hx token with
  | none _ hc => rw [hc,hw ho]
  | deposit _ _ _ hs => simp [hs] at hd
  | redemption _ _ _ hs => simp [hs] at hd

/-- **The cap**: from a state in which the cap of a token is set and nothing of it has been
deposited, over every run that leaves the cap alone, the count stays below the cap. -/
theorem deposit_cap (self : Address) (bank : Bank) (cs cs' : List (Env × PoolCall))
    (token : Address) (max : Int) (w : PoolWorld)
    (hw : w = (poolSystem self).run (PoolWorld.deployed bank) cs) (hmax : 0 < max)
    (hcap : w.pool.maxPoolSize token = max) (hfree : w.pool.dealings token = [])
    (hkept : (poolSystem self).Along
      (fun w c => ((poolSystem self).apply w c).pool.maxPoolSize token = max) w cs') :
    let w' := (poolSystem self).run w cs'
    w'.pool.totalDeposits token ≤ max ∧
      ((poolSystem self).Along (fun w c => c.2.WithinPrincipal token w) w cs' →
        0 ≤ w'.pool.totalDeposits token ∧
          w'.pool.untouchedDeposits token ≤ w'.pool.totalDeposits token) := by
  intro w'
  have hz : w.pool.totalDeposits token = 0 := by
    subst hw
    exact totalDeposits_of_no_dealings self bank cs token hfree
  constructor
  · have he : w'.pool.maxPoolSize token = max ∧ w'.pool.totalDeposits token ≤ max := by
      refine along_induction
        (I := fun w => w.pool.maxPoolSize token = max ∧ w.pool.totalDeposits token ≤ max) ?_
        ⟨hcap,by omega⟩ hkept
      rintro s c s' ⟨hs,hle⟩ hm hx
      rw [apply_of_ok hx] at hm
      exact ⟨hm,totalDeposits_le_step hmax hs hle hx⟩
    exact he.2
  · intro hwithin
    have ht : w.pool.Covered token := by
      refine ⟨?_,?_,fun prov => ?_⟩
      · rw [hz,hfree]
        rfl
      · rw [hz]
        exact zero_fits
      · unfold principal
        rw [hfree]
        exact le_refl 0
    have he : w'.pool.Covered token :=
      along_induction (I := fun w => w.pool.Covered token)
        (fun s c s' hs hp hx => hs.step hp hx) ht hwithin
    rw [he.total]
    have ha := Ledger.total_filter_nonneg (fun _ => true) he.principal_nonneg
    exact ⟨by simpa using ha,Ledger.untouched_le_total he.principal_nonneg⟩

def PoolCall.smallCap : List (Env × PoolCall) :=
  [(.small 1,.initializePool ⟨4⟩),(.small 1,.setMaxPoolSize ⟨3⟩ 1000)]

def PoolCall.smallDealings : List (Env × PoolCall) :=
  [(.small 1,.deposit ⟨5⟩ ⟨3⟩ 500 0),(.small 1,.deposit ⟨6⟩ ⟨3⟩ 100 0),
    (.small 1,.emergencyWithdraw ⟨5⟩ ⟨3⟩ 200 0)]

theorem deposit_cap_small :
    let w := (poolSystem ⟨1⟩).run (PoolWorld.deployed .small) PoolCall.smallCap
    let w' := (poolSystem ⟨1⟩).run w PoolCall.smallDealings
    w'.pool.totalDeposits ⟨3⟩ = 400 ∧ w'.pool.untouchedDeposits ⟨3⟩ = 100 ∧
      w'.pool.totalDeposits ⟨3⟩ ≤ 1000 ∧ 0 ≤ w'.pool.totalDeposits ⟨3⟩ ∧
      w'.pool.untouchedDeposits ⟨3⟩ ≤ w'.pool.totalDeposits ⟨3⟩ := by
  refine ⟨by decide +kernel,by decide +kernel,?_⟩
  have hcap := deposit_cap ⟨1⟩ .small PoolCall.smallCap PoolCall.smallDealings ⟨3⟩ 1000 _ rfl
    (by decide) (by decide +kernel) (by decide +kernel) (by decide +kernel)
  exact ⟨hcap.1,hcap.2 (by decide +kernel)⟩

/-- A provider who redeems a yield takes the count below zero, with another deposit still there. -/
theorem deposit_cap_undercounts :
    let w := (poolSystem ⟨1⟩).run (PoolWorld.deployed .small)
      [(.small 1, .initializePool ⟨4⟩),(.small 1, .setMaxPoolSize ⟨3⟩ 2000),
        (.small 1, .deposit ⟨5⟩ ⟨3⟩ 1000 0),(.small 1, .deposit ⟨6⟩ ⟨3⟩ 10 0),
        (.small 1, .distributeYield ⟨6⟩ ⟨3⟩ 1000),(.small 1, .emergencyWithdraw ⟨5⟩ ⟨3⟩ 1000 0)]
    w.pool.maxPoolSize ⟨3⟩ = 2000 ∧ w.pool.totalDeposits ⟨3⟩ = -487 ∧
      w.pool.untouchedDeposits ⟨3⟩ = 10 := by
  intro w
  exact ⟨by decide +kernel,by decide +kernel,by decide +kernel⟩

end DukaPay
