import DukaPay.LendingPool.Defs

/-! Every entry point of the pool that returns has made at most one entry in the accounting part of
its storage. -/
namespace DukaPay
open Contractlib Function Books

inductive Entry
  | idle
  | mint (provider token : Address) (amount minted : Int) (ledger : Nat)
  | burn (provider token : Address) (burned assets : Int)
  | gain (token : Address) (amount : Int)
  | lose (token : Address) (amount : Int)
  | report (token : Address) (delta : Int)

namespace Books

def mint (provider token : Address) (amount minted : Int) (ledger : Nat) (b : Books) : Books where
  totalShares := Function.update b.totalShares token (b.totalShares token + minted)
  shares := b.shares.insert (provider,token) (b.readShares provider token + minted)
  depositTimestamp := b.depositTimestamp.insert (provider,token) ledger
  totalDeposits := Function.update b.totalDeposits token (b.totalDeposits token + amount)
  totalOutstanding := b.totalOutstanding
  totalManagedAssets :=
    Function.update b.totalManagedAssets token (b.totalManagedAssets token + amount)
  depositorCount :=
    if b.readShares provider token = 0 then
      Function.update b.depositorCount token (b.depositorCount token + 1)
    else b.depositorCount
  totalYieldDistributed := b.totalYieldDistributed

def burn (provider token : Address) (burned assets : Int) (b : Books) : Books :=
  let remaining := b.readShares provider token - burned
  { b with
    totalShares := Function.update b.totalShares token (b.totalShares token - burned)
    shares := b.shares.write (provider,token) (if remaining = 0 then none else some remaining)
    depositTimestamp :=
      if remaining = 0 then b.depositTimestamp.erase (provider,token) else b.depositTimestamp
    totalDeposits := Function.update b.totalDeposits token
      (i128.saturatingSub (b.totalDeposits token) assets)
    totalManagedAssets :=
      Function.update b.totalManagedAssets token (b.totalManagedAssets token - assets)
    depositorCount :=
      if remaining = 0 then Function.update b.depositorCount token (b.depositorCount token - 1)
      else b.depositorCount }

def gain (token : Address) (amount : Int) (b : Books) : Books :=
  { b with
    totalManagedAssets :=
      Function.update b.totalManagedAssets token (b.totalManagedAssets token + amount)
    totalYieldDistributed :=
      Function.update b.totalYieldDistributed token (b.totalYieldDistributed token + amount) }

def lose (token : Address) (amount : Int) (b : Books) : Books :=
  { b with
    totalManagedAssets :=
      Function.update b.totalManagedAssets token (b.totalManagedAssets token - amount) }

def report (token : Address) (delta : Int) (b : Books) : Books :=
  { b with
    totalOutstanding :=
      Function.update b.totalOutstanding token (b.totalOutstanding token + delta) }

def post (b : Books) : Entry → Books
  | .idle => b
  | .mint provider token amount minted ledger => b.mint provider token amount minted ledger
  | .burn provider token burned assets => b.burn provider token burned assets
  | .gain token amount => b.gain token amount
  | .lose token amount => b.lose token amount
  | .report token delta => b.report token delta

structure SameFor (token : Address) (b b' : Books) : Prop where
  totalShares : b'.totalShares token = b.totalShares token
  shares : ∀ provider, b'.shares.lookup (provider, token) = b.shares.lookup (provider, token)
  depositTimestamp : ∀ provider,
    b'.depositTimestamp.lookup (provider, token) = b.depositTimestamp.lookup (provider, token)
  totalDeposits : b'.totalDeposits token = b.totalDeposits token
  totalOutstanding : b'.totalOutstanding token = b.totalOutstanding token
  totalManagedAssets : b'.totalManagedAssets token = b.totalManagedAssets token
  depositorCount : b'.depositorCount token = b.depositorCount token
  totalYieldDistributed : b'.totalYieldDistributed token = b.totalYieldDistributed token

end Books

namespace Entry

def token? : Entry → Option Address
  | .idle => none
  | .mint _ token _ _ _ => some token
  | .burn _ token _ _ => some token
  | .gain token _ => some token
  | .lose token _ => some token
  | .report token _ => some token

def Admissible (b : Books) : Entry → Prop
  | .idle => True
  | .mint _ token amount minted _ =>
    0 < amount ∧ 0 < minted ∧
      LendingPool.calcSharesToMint amount (b.totalManagedAssets token) (b.totalShares token) =
        .ok minted ∧
      i128.Fits (b.totalManagedAssets token + amount)
  | .burn provider token burned assets =>
    0 < burned ∧ burned ≤ b.readShares provider token ∧ 0 < assets ∧
      LendingPool.calcAssetsToRedeem burned (b.totalManagedAssets token) (b.totalShares token) =
        .ok assets ∧
      i128.Fits (b.totalManagedAssets token - assets)
  | .gain token amount => 0 < amount ∧ i128.Fits (b.totalManagedAssets token + amount)
  | .lose token amount => 0 < amount ∧ amount ≤ b.totalManagedAssets token
  | .report _ _ => True

end Entry

namespace Books

lemma SameFor.refl (token b) : SameFor token b b :=
  ⟨rfl,fun _ => rfl,fun _ => rfl,rfl,rfl,rfl,rfl,rfl⟩

lemma key_ne {lp provider' token token' : Address} (h : token ≠ token') :
    (lp,token) ≠ (provider',token') := by
  intro he
  exact h (Prod.mk.inj he).2

lemma sameFor_post (b) {e : Entry} {token : Address} (h : e.token? ≠ some token) :
    SameFor token b (b.post e) := by
  cases e with
  | idle => exact .refl token b
  | mint lp token' =>
    have hn : token ≠ token' := fun he => h (by rw [he]; rfl)
    refine ⟨?_,fun p => ?_,fun p => ?_,?_,rfl,?_,?_,rfl⟩
    · exact update_of_ne hn _ _
    · exact AList.lookup_insert_ne (key_ne hn)
    · exact AList.lookup_insert_ne (key_ne hn)
    · exact update_of_ne hn _ _
    · exact update_of_ne hn _ _
    · simp only [post,mint]
      split
      · exact update_of_ne hn _ _
      · rfl
  | burn lp token' =>
    have hn : token ≠ token' := fun he => h (by rw [he]; rfl)
    refine ⟨?_,fun p => ?_,fun p => ?_,?_,rfl,?_,?_,rfl⟩
    · exact update_of_ne hn _ _
    · exact Storage.lookup_write_ne (key_ne hn) _ _
    · simp only [post,burn]
      split
      · exact AList.lookup_erase_ne (key_ne hn)
      · rfl
    · exact update_of_ne hn _ _
    · exact update_of_ne hn _ _
    · simp only [post,burn]
      split
      · exact update_of_ne hn _ _
      · rfl
  | gain token' =>
    have hn : token ≠ token' := fun he => h (by rw [he]; rfl)
    exact ⟨rfl,fun _ => rfl,fun _ => rfl,rfl,rfl,update_of_ne hn _ _,rfl,update_of_ne hn _ _⟩
  | lose token' =>
    have hn : token ≠ token' := fun he => h (by rw [he]; rfl)
    exact ⟨rfl,fun _ => rfl,fun _ => rfl,rfl,rfl,update_of_ne hn _ _,rfl,rfl⟩
  | report token' =>
    have hn : token ≠ token' := fun he => h (by rw [he]; rfl)
    exact ⟨rfl,fun _ => rfl,fun _ => rfl,rfl,update_of_ne hn _ _,rfl,rfl,rfl⟩

end Books

def Books.Fits (b : Books) : Prop := ∀ token, i128.Fits (b.totalManagedAssets token)

lemma zero_fits : i128.Fits 0 := by decide

lemma Books.fits_empty : LendingPool.empty.toBooks.Fits := fun _ => zero_fits

lemma Books.Fits.post {b : Books} {e : Entry} (hb : b.Fits) (he : e.Admissible b) :
    (b.post e).Fits := by
  intro token
  by_cases ht : e.token? = some token
  · cases e with
    | idle | report _ _ => exact hb token
    | mint =>
      cases ht
      obtain ⟨-,-,-,hf⟩ := he
      simpa [Books.post,Books.mint] using hf
    | burn =>
      cases ht
      obtain ⟨-,-,-,-,hf⟩ := he
      simpa [Books.post,Books.burn] using hf
    | gain =>
      cases ht
      obtain ⟨-,hf⟩ := he
      simpa [Books.post,Books.gain] using hf
    | lose _ amount =>
      cases ht
      obtain ⟨_,hl⟩ := he
      have hf : i128.Fits (b.totalManagedAssets token - amount) :=
        ⟨le_trans (by decide) (Int.sub_nonneg_of_le hl),by have := (hb token).2; omega⟩
      simpa [Books.post,Books.lose] using hf
  · rw [(Books.sameFor_post b ht).totalManagedAssets]
    exact hb token

namespace LendingPool

structure Posted (e : Entry) (p p' : LendingPool) : Prop where
  admissible : e.Admissible p.toBooks
  books : p'.toBooks = p.toBooks.post e
  loanManager : p'.loanManager = p.loanManager

variable {self : Address} {env : Env} {w w' : PoolWorld} {p p' : LendingPool}

lemma Posted.refl (p) : Posted .idle p p := ⟨trivial,rfl,rfl⟩

lemma Posted.fits {e} (h : Posted e p p') (hp : p.toBooks.Fits) : p'.toBooks.Fits := by
  rw [h.books]
  exact hp.post h.admissible

lemma eq_of_acquireLock (h : p.acquireLock = .ok p') :
    p' = { p with reentrancyLock := true, callDepth := p.callDepth + 1 } := by
  simp only [acquireLock,eq_ok] at h
  exact h.2.2.symm

@[simp] lemma releaseLock_toBooks (p : LendingPool) : p.releaseLock.toBooks = p.toBooks := by
  unfold releaseLock
  split <;> rfl

@[simp] lemma releaseLock_loanManager (p : LendingPool) :
    p.releaseLock.loanManager = p.loanManager := by
  unfold releaseLock
  split <;> rfl

variable {token lp : Address} {amount shares minAssetsOut : Int}

lemma eq_of_countDepositor (h : p.countDepositor lp token = .ok p') : p' = { p with
    depositorCount :=
        if p.readShares lp token = 0 then
          update p.depositorCount token (p.depositorCount token + 1)
        else p.depositorCount } := by
  unfold countDepositor at h
  split at h
  · next hz =>
    simp only [eq_ok] at h
    obtain ⟨_,⟨-,rfl⟩,rfl⟩ := h
    simp [hz]
  · next hz =>
    simp only [pure_eq_ok] at h
    simp [← h,hz]

lemma posted_of_deposit {minSharesOut}
    (h : deposit self env lp token amount minSharesOut w = .ok w') : env.Authorized lp ∧
    (∃ mtd, Posted (.mint lp token amount mtd env.sequence) w.pool w'.pool) ∧
    Bank.Moved ⟨token,lp,self,amount,some self⟩ w.bank w'.bank := by
  simp only [deposit,eq_ok] at h
  obtain ⟨ha,-,-,_,hp,hm,-,-,mtd,hn,hs,-,_,hp2,_,⟨-,rfl⟩,_,⟨-,rfl⟩,_,⟨-,rfl⟩,_,⟨hf,rfl⟩,
    _,hb,rfl⟩ := h
  cases eq_of_acquireLock hp
  cases eq_of_countDepositor hp2
  refine ⟨ha,⟨mtd,⟨hm,hs,hn,hf⟩,?_,?_⟩,Bank.moved_of_transfer hb⟩
  · rw [releaseLock_toBooks]
    rfl
  · rw [releaseLock_loanManager]
    rfl

lemma setRemainingShares_eq (lp token rem) (p : LendingPool) :
    p.setRemainingShares lp token rem = { p with
        shares := p.shares.write (lp,token) (if rem = 0 then none else some rem)
        depositTimestamp :=
          if rem = 0 then p.depositTimestamp.erase (lp,token) else p.depositTimestamp
        depositorCount :=
          if rem = 0 then
            update p.depositorCount token (p.depositorCount token - 1)
          else p.depositorCount } := by
  unfold setRemainingShares
  split <;> rfl

lemma posted_of_redeemShares (h : redeemShares self env lp token shares minAssetsOut w = .ok w') :
    ∃ ast, Posted (.burn lp token shares ast) w.pool w'.pool ∧
    Bank.Moved ⟨token,self,lp,ast,some self⟩ w.bank w'.bank := by
  simp only [redeemShares,eq_ok] at h
  obtain ⟨hs,-,hh,ast,ha,hp,-,-,_,⟨-,rfl⟩,_,⟨-,rfl⟩,_,⟨hf,rfl⟩,_,hb,rfl⟩ := h
  refine ⟨ast,⟨⟨hs,hh,hp,ha,hf⟩,?_,?_⟩,Bank.moved_of_transfer hb⟩
  · simp only [setRemainingShares_eq]
    rfl
  · simp only [setRemainingShares_eq]
    rfl

lemma posted_of_withdraw (h : withdraw self env lp token shares minAssetsOut w = .ok w') :
    env.Authorized lp ∧ ∃ ast, Posted (.burn lp token shares ast) w.pool w'.pool ∧
    Bank.Moved ⟨token,self,lp,ast,some self⟩ w.bank w'.bank := by
  simp only [withdraw,eq_ok] at h
  obtain ⟨ha,-,-,-,_,hp,_,hw1,rfl⟩ := h
  cases eq_of_acquireLock hp
  obtain ⟨ast,⟨hd,hb,hl⟩,hm⟩ := posted_of_redeemShares hw1
  refine ⟨ha,ast,⟨hd,?_,?_⟩,hm⟩
  · rw [releaseLock_toBooks,hb]
  · rw [releaseLock_loanManager,hl]

lemma posted_of_emergencyWithdraw
    (h : emergencyWithdraw self env lp token shares minAssetsOut w = .ok w') :
    env.Authorized lp ∧ ∃ ast, Posted (.burn lp token shares ast) w.pool w'.pool ∧
    Bank.Moved ⟨token,self,lp,ast,some self⟩ w.bank w'.bank := by
  simp only [emergencyWithdraw,eq_ok] at h
  obtain ⟨ha,-,_,hp,_,hw1,rfl⟩ := h
  cases eq_of_acquireLock hp
  obtain ⟨ast,⟨hd,hb,hl⟩,hm⟩ := posted_of_redeemShares hw1
  refine ⟨ha,ast,⟨hd,?_,?_⟩,hm⟩
  · rw [releaseLock_toBooks,hb]
  · rw [releaseLock_loanManager,hl]

lemma eq_of_yieldDistributed (hp : 0 < amount) (h : p.yieldDistributed env token amount = .ok p') :
    p' = { p with
      totalYieldDistributed :=
        update p.totalYieldDistributed token (p.totalYieldDistributed token + amount)
      events := (env.sequence,.YieldDistributed token amount) :: p.events } := by
  simp only [yieldDistributed,if_pos hp,eq_ok] at h
  obtain ⟨_,⟨-,rfl⟩,rfl⟩ := h
  rfl

lemma posted_of_distributeYield {«from»}
    (h : distributeYield self env «from» token amount w = .ok w') :
    env.Authorized «from» ∧ Posted (.gain token amount) w.pool w'.pool ∧
      Bank.Moved ⟨token,«from»,self,amount,some self⟩ w.bank w'.bank := by
  simp only [distributeYield,eq_ok] at h
  obtain ⟨ha,-,-,_,hp,hm,_,⟨hf,rfl⟩,_,hb,_,hp2,rfl⟩ := h
  cases eq_of_acquireLock hp
  cases eq_of_yieldDistributed hm hp2
  refine ⟨ha,⟨⟨hm,hf⟩,?_,?_⟩,Bank.moved_of_transfer hb⟩
  · rw [releaseLock_toBooks]
    rfl
  · rw [releaseLock_loanManager]
    rfl

lemma authorized_of_requireLoanManager {u} (h : p.requireLoanManager env = .ok u) :
    ∃ loanManager, p.loanManager = some loanManager ∧ env.Authorized loanManager := by
  simpa only [requireLoanManager,bind_eq_ok,expect_eq_ok,Env.requireAuth_eq_ok] using h

def gainEntry (token : Address) (amount : Int) : Entry :=
  if amount = 0 then .idle else .gain token amount

def lossEntry (token : Address) (amount : Int) : Entry :=
  if amount = 0 then .idle else .lose token amount

lemma posted_of_recordLoanYield (h : recordLoanYield env token amount p = .ok p') :
    (∃ loanManager, p.loanManager = some loanManager ∧ env.Authorized loanManager) ∧
      0 ≤ amount ∧ Posted (gainEntry token amount) p p' := by
  simp only [recordLoanYield,eq_ok] at h
  obtain ⟨hl,h0,h⟩ := h
  refine ⟨authorized_of_requireLoanManager hl,h0,?_⟩
  unfold gainEntry
  split at h
  · next hz =>
    cases h
    rw [if_pos hz]
    exact .refl p
  · next hz =>
    simp only [eq_ok] at h
    obtain ⟨_,⟨hf,rfl⟩,_,hp2,rfl⟩ := h
    have hs : 0 < amount := by omega
    cases eq_of_yieldDistributed hs hp2
    rw [if_neg hz]
    exact ⟨⟨hs,hf⟩,rfl,rfl⟩

lemma posted_of_recordLoanLoss (h : recordLoanLoss env token amount p = .ok p') :
    (∃ loanManager, p.loanManager = some loanManager ∧ env.Authorized loanManager) ∧
    0 ≤ amount ∧ Posted (lossEntry token amount) p p' := by
  simp only [recordLoanLoss,eq_ok] at h
  obtain ⟨hl,h0,h⟩ := h
  refine ⟨authorized_of_requireLoanManager hl,h0,?_⟩
  unfold lossEntry
  split at h
  · next hz =>
    cases h
    rw [if_pos hz]
    exact .refl p
  · next hz =>
    simp only [eq_ok,Option.filter_eq_some_iff,decide_eq_true_eq] at h
    obtain ⟨_,⟨⟨-,rfl⟩,_⟩,rfl⟩ := h
    rw [if_neg hz]
    exact ⟨⟨by omega,by omega⟩,rfl,rfl⟩

lemma moved_of_disburse {r} (h : disburse self env r token amount w = .ok w') :
    (∃ loanManager, w.pool.loanManager = some loanManager ∧ env.Authorized loanManager) ∧
    0 < amount ∧ w'.pool = w.pool ∧ Bank.Moved ⟨token,self,r,amount,some self⟩ w.bank w'.bank := by
  simp only [disburse,eq_ok] at h
  obtain ⟨loanManager,hl,ha,-,-,hm,-,_,hb,rfl⟩ := h
  exact ⟨⟨loanManager,hl,ha⟩,hm,rfl,Bank.moved_of_transfer hb⟩

end LendingPool

namespace PoolCall

def Makes (env : Env) : PoolCall → Entry → Prop
  | .deposit provider token amount _,e =>
    ∃ minted, e = .mint provider token amount minted env.sequence
  | .withdraw provider token shares _,e => ∃ assets, e = .burn provider token shares assets
  | .emergencyWithdraw provider token shares _,e =>
    ∃ assets, e = .burn provider token shares assets
  | .distributeYield _ token amount,e => e = .gain token amount
  | .recordLoanYield token amount,e => e = LendingPool.gainEntry token amount
  | .recordLoanLoss token amount,e => e = LendingPool.lossEntry token amount
  | .adjustOutstanding token delta,e => e = .idle ∨ e = .report token delta
  | _,e => e = .idle

def token? : PoolCall → Option Address
  | .deposit _ token _ _ => some token
  | .withdraw _ token _ _ => some token
  | .emergencyWithdraw _ token _ _ => some token
  | .distributeYield _ token _ => some token
  | .recordLoanYield token _ => some token
  | .recordLoanLoss token _ => some token
  | .adjustOutstanding token _ => some token
  | _ => none

variable {self : Address} {env : Env} {w w' : PoolWorld}

/-- **The calls refine the books**: a call that returns has made one entry, after the checks the
entry requires. -/
lemma posts {c : PoolCall} (h : c.exec self env w = .ok w') :
    ∃ e, c.Makes env e ∧ e.Admissible w.pool.toBooks ∧ w'.pool.toBooks = w.pool.toBooks.post e := by
  cases c with
  | initializePool =>
    simp only [exec,LendingPool.initializePool,eq_ok] at h
    obtain ⟨p,⟨-,rfl⟩,rfl⟩ := h
    exact ⟨.idle,rfl,trivial,rfl⟩
  | deposit =>
    obtain ⟨-,⟨mtd,hp⟩,-⟩ := LendingPool.posted_of_deposit h
    exact ⟨_,⟨mtd,rfl⟩,hp.admissible,hp.books⟩
  | withdraw =>
    obtain ⟨-,ast,hp,-⟩ := LendingPool.posted_of_withdraw h
    exact ⟨_,⟨ast,rfl⟩,hp.admissible,hp.books⟩
  | emergencyWithdraw =>
    obtain ⟨-,ast,hp,-⟩ := LendingPool.posted_of_emergencyWithdraw h
    exact ⟨_,⟨ast,rfl⟩,hp.admissible,hp.books⟩
  | distributeYield «from» token amount =>
    obtain ⟨-,hp,-⟩ := LendingPool.posted_of_distributeYield h
    exact ⟨_,rfl,hp.admissible,hp.books⟩
  | recordLoanYield =>
    simp only [exec,eq_ok] at h
    obtain ⟨p,hy,rfl⟩ := h
    obtain ⟨-,-,hp⟩ := LendingPool.posted_of_recordLoanYield hy
    exact ⟨_,rfl,hp.admissible,hp.books⟩
  | recordLoanLoss =>
    simp only [exec,eq_ok] at h
    obtain ⟨p,hl,rfl⟩ := h
    obtain ⟨-,-,hp⟩ := LendingPool.posted_of_recordLoanLoss hl
    exact ⟨_,rfl,hp.admissible,hp.books⟩
  | disburse =>
    obtain ⟨-,-,hpl,-⟩ := LendingPool.moved_of_disburse h
    exact ⟨.idle,rfl,trivial,congrArg LendingPool.toBooks hpl⟩
  | adjustOutstanding =>
    simp only [exec,LendingPool.adjustOutstanding,eq_ok] at h
    obtain ⟨p,⟨_,-,-,-,h⟩,rfl⟩ := h
    split at h
    · cases h
      exact ⟨.idle,.inl rfl,trivial,rfl⟩
    simp only [eq_ok] at h
    obtain ⟨_,⟨-,rfl⟩,-,rfl⟩ := h
    exact ⟨_,.inr rfl,trivial,rfl⟩
  | transfer =>
    simp only [exec,eq_ok] at h
    obtain ⟨_,-,rfl⟩ := h
    exact ⟨.idle,rfl,trivial,rfl⟩
  | setMaxPoolSize _ _ | setWithdrawalCooldown _ | proposeAdmin _ | acceptAdmin | setAdmin _ |
    pause | unpause | setCircuitBreaker _ | setLoanManager _ =>
    -- the settings are not part of the books
    refine ⟨.idle,rfl,trivial,?_⟩
    simp only [exec,LendingPool.setMaxPoolSize,LendingPool.setWithdrawalCooldown,
      LendingPool.proposeAdmin,LendingPool.acceptAdmin,LendingPool.setAdmin,LendingPool.pause,
      LendingPool.unpause,LendingPool.setCircuitBreaker,LendingPool.setLoanManager,eq_ok] at h
    grind [post,LendingPool.publish]

lemma fits {c : PoolCall} (hw : w.pool.toBooks.Fits) (h : c.exec self env w = .ok w') :
    w'.pool.toBooks.Fits := by
  obtain ⟨_,-,ha,hb⟩ := posts h
  rw [hb]
  exact hw.post ha

lemma Makes.token {c : PoolCall} {e token} (h : c.Makes env e)
    (ht : e.token? = some token) : c.token? = some token := by
  cases c <;> simp only [Makes] at h
  case deposit => obtain ⟨_,rfl⟩ := h; exact ht
  case withdraw => obtain ⟨ast,rfl⟩ := h; exact ht
  case emergencyWithdraw => obtain ⟨ast,rfl⟩ := h; exact ht
  case distributeYield => subst h; exact ht
  case recordLoanYield =>
    subst h
    unfold LendingPool.gainEntry at ht
    split at ht <;> first | exact ht | cases ht
  case recordLoanLoss =>
    subst h
    unfold LendingPool.lossEntry at ht
    split at ht <;> first | exact ht | cases ht
  case adjustOutstanding =>
    obtain rfl | rfl := h
    · cases ht
    · exact ht
  all_goals subst h; cases ht

end PoolCall

end DukaPay
