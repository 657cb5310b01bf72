import DukaPay.LendingPool.Books
import DukaPay.Protocol.Defs

/-! What a sequence of transfers made by the two contracts does to their balances. -/
namespace DukaPay
open Contractlib Function LendingPool Books World

def unsolicited (d : Deployment) (token holder : Address) (x : Transfer) : Bool :=
  decide (x.token = token ∧ x.dst = holder ∧ x.invoker ≠ some d.pool ∧ x.invoker ≠ some d.manager)

def intoPool (d : Deployment) (token : Address) (x : Transfer) : Bool :=
  decide (x.token = token ∧ x.dst = d.pool)

/-- The effect of transfers of `token` made by the contracts: `inflow` came into the pool, `outflow`
left it, and the manager holds `held` more. -/
structure Flow (d : Deployment) (token : Address) (inflow outflow held : Int) (b b' : Bank) :
    Prop where
  pool : ∀ t, b'.balance t d.pool = b.balance t d.pool + if t = token then inflow - outflow else 0
  manager : ∀ t, b'.balance t d.manager = b.balance t d.manager + if t = token then held else 0
  unsolicited : ∀ t holder,
    b'.total (unsolicited d t holder) = b.total (DukaPay.unsolicited d t holder)
  intoPool : ∀ t, b'.total (intoPool d t) = b.total (DukaPay.intoPool d t) +
    if t = token then inflow else 0

namespace Flow
variable {d : Deployment} {token : Address} {inflow outflow held inflow' outflow' held' : Int}
  {b b' b'' : Bank}

lemma refl (d token b) : Flow d token 0 0 0 b b :=
  ⟨fun _ => by simp,fun _ => by simp,fun _ _ => rfl,fun _ => by simp⟩

lemma trans (h : Flow d token inflow outflow held b b')
    (h' : Flow d token inflow' outflow' held' b' b'') :
    Flow d token (inflow + inflow') (outflow + outflow') (held + held') b b'' where
  pool := by
    intro t
    rw [h'.pool,h.pool]
    split <;> omega
  manager := by
    intro t
    rw [h'.manager,h.manager]
    split <;> omega
  unsolicited := by
    intro t holder
    rw [h'.unsolicited,h.unsolicited]
  intoPool := by
    intro t
    rw [h'.intoPool,h.intoPool]
    split <;> omega

lemma cast (h : Flow d token inflow outflow held b b') (hn : inflow = inflow')
    (ho : outflow = outflow') (hh : held = held') : Flow d token inflow' outflow' held' b b' := by
  subst hn ho hh
  exact h

end Flow

section
variable {d : Deployment} {x : Transfer} {b b' : Bank}

lemma flow_of_moved (h : Bank.Moved x b b')
    (hi : x.invoker = some d.pool ∨ x.invoker = some d.manager) :
    Flow d x.token (if x.dst = d.pool then x.amount else 0) (if x.src = d.pool then x.amount else 0)
      ((if x.dst = d.manager then x.amount else 0) - if x.src = d.manager then x.amount else 0)
      b b' where
  pool := by
    intro t
    rw [h.balance]
    simp only [Bank.delta,eq_comm]
  manager := by
    intro t
    rw [h.balance]
    simp only [Bank.delta,eq_comm]
  unsolicited := by
    intro t own
    have hn : unsolicited d t own x = false := by
      unfold unsolicited
      rcases hi with hp | hm
      · simp [hp]
      · simp [hm]
    rw [h.total_eq,hn]
    simp
  intoPool := by
    intro t
    rw [h.total_eq]
    congr 1
    unfold DukaPay.intoPool
    obtain rfl | ht := eq_or_ne t x.token
    · simp
    · simp [ht,Ne.symm ht]

variable {token src dst : Address} {amount : Int}

lemma Flow.paidIn {inv} (h : Bank.Moved ⟨token,src,d.pool,amount,inv⟩ b b')
    (hi : inv = some d.pool ∨ inv = some d.manager) (hp : src ≠ d.pool)
    (hm : src ≠ d.manager) : Flow d token amount 0 0 b b' := by
  have hf := flow_of_moved h hi
  simpa [hp,hm,d.distinct] using hf

lemma Flow.paidOut {inv} (h : Bank.Moved ⟨token,d.pool,dst,amount,inv⟩ b b')
    (hi : inv = some d.pool ∨ inv = some d.manager) (hp : dst ≠ d.pool)
    (hm : dst ≠ d.manager) : Flow d token 0 amount 0 b b' := by
  have hf := flow_of_moved h hi
  simpa [hp,hm,d.distinct] using hf

lemma Flow.seized (h : Bank.Moved ⟨token,d.manager,d.pool,amount,some d.manager⟩ b b') :
    Flow d token amount 0 (-amount) b b' := by
  have hf := flow_of_moved h (.inr rfl)
  simpa [d.distinct,d.distinct.symm] using hf

lemma Flow.pledged (h : Bank.Moved ⟨token,src,d.manager,amount,some d.manager⟩ b b')
    (hp : src ≠ d.pool) (hm : src ≠ d.manager) : Flow d token 0 0 amount b b' := by
  have hf := flow_of_moved h (.inr rfl)
  simpa [hp,hm,d.distinct.symm] using hf

lemma Flow.released (h : Bank.Moved ⟨token,d.manager,dst,amount,some d.manager⟩ b b')
    (hp : dst ≠ d.pool) (hm : dst ≠ d.manager) : Flow d token 0 0 (-amount) b b' := by
  have hf := flow_of_moved h (.inr rfl)
  simpa [hp,hm,d.distinct.symm] using hf

end

namespace World
variable (d : Deployment)

def donatedToPool (w : World) (token : Address) : Int :=
  w.bank.total (unsolicited d token d.pool)

def donatedToManager (w : World) (token : Address) : Int :=
  w.bank.total (unsolicited d token d.manager)

def cash (w : World) (token : Address) : Int :=
  w.bank.balance token d.pool - w.donatedToPool d token

def netLent (w : World) (token : Address) : Int :=
  w.pool.totalManagedAssets token - w.cash d token

def custody (w : World) (token : Address) : Int :=
  w.bank.balance token d.manager - w.donatedToManager d token

variable {d : Deployment} {token : Address} {inflow outflow held : Int} {w w' : World}

lemma cash_of_flow (h : Flow d token inflow outflow held w.bank w'.bank) (t) :
    w'.cash d t = w.cash d t + if t = token then inflow - outflow else 0 := by
  unfold cash donatedToPool
  rw [h.pool,h.unsolicited]
  omega

lemma custody_of_flow (h : Flow d token inflow outflow held w.bank w'.bank) (t) :
    w'.custody d t = w.custody d t + if t = token then held else 0 := by
  unfold custody donatedToManager
  rw [h.manager,h.unsolicited]
  omega

end World

def Settled (token : Address) (gain loss : Int) (p p' : LendingPool) : Prop :=
  ∃ q, LendingPool.Posted (LendingPool.gainEntry token gain) p q ∧
    LendingPool.Posted (LendingPool.lossEntry token loss) q p'

lemma LendingPool.Posted.managed_gainEntry {token gain p p'}
    (h : Posted (gainEntry token gain) p p') (t) :
    p'.totalManagedAssets t = p.totalManagedAssets t + if t = token then gain else 0 := by
  rw [h.books]
  unfold gainEntry
  split
  · next hz => simp [Books.post,hz]
  simp only [Books.post,Books.gain,update_apply]
  split
  · next ht => rw [ht]
  · rw [add_zero]

lemma LendingPool.Posted.managed_lossEntry {token loss p p'}
    (h : Posted (lossEntry token loss) p p') (t) :
    p'.totalManagedAssets t = p.totalManagedAssets t - if t = token then loss else 0 := by
  rw [h.books]
  unfold lossEntry
  split
  · next hz => simp [post,hz]
  simp only [post,lose,update_apply]
  split
  · next ht => rw [ht]
  · rw [sub_zero]

lemma LendingPool.totalShares_gainEntry (b : Books) (token gain) :
    (b.post (gainEntry token gain)).totalShares = b.totalShares := by
  unfold gainEntry
  split <;> rfl

lemma LendingPool.totalShares_lossEntry (b : Books) (token loss) :
    (b.post (lossEntry token loss)).totalShares = b.totalShares := by
  unfold lossEntry
  split <;> rfl

namespace Settled
variable {token : Address} {gain loss : Int} {p p' : LendingPool}

lemma refl (token p) : Settled token 0 0 p p := ⟨p,.refl p,.refl p⟩

lemma of_gain (h : LendingPool.Posted (gainEntry token gain) p p') : Settled token gain 0 p p' :=
  ⟨p',h,.refl p'⟩

lemma of_loss (h : LendingPool.Posted (lossEntry token loss) p p') : Settled token 0 loss p p' :=
  ⟨p,.refl p,h⟩

lemma after_gain {q} (hg : LendingPool.Posted (gainEntry token gain) p q)
    (h : Settled token 0 loss q p') : Settled token gain loss p p' := by
  obtain ⟨r,h0,hl⟩ := h
  have hd : gainEntry token 0 = .idle := if_pos rfl
  rw [hd] at h0
  refine ⟨r,⟨hg.admissible,?_,h0.loanManager.trans hg.loanManager⟩,hl⟩
  rw [h0.books,hg.books]
  rfl

variable (h : Settled token gain loss p p')

include h

lemma managed (t) :
    p'.totalManagedAssets t = p.totalManagedAssets t + if t = token then gain - loss else 0 := by
  obtain ⟨_,hg,hl⟩ := h
  rw [hl.managed_lossEntry,hg.managed_gainEntry]
  split <;> omega

lemma totalShares : p'.totalShares = p.totalShares := by
  obtain ⟨_,hg,hl⟩ := h
  rw [hl.books,totalShares_lossEntry,hg.books,totalShares_gainEntry]

lemma fits (hp : p.toBooks.Fits) : p'.toBooks.Fits := by
  obtain ⟨_,hg,hl⟩ := h
  exact hl.fits (hg.fits hp)

lemma loanManager : p'.loanManager = p.loanManager := by
  obtain ⟨_,hg,hl⟩ := h
  rw [hl.loanManager,hg.loanManager]

end Settled

lemma Env.External.not_pool {d} {env : Env} (he : env.External d) {a}
    (ha : env.Authorized a) : a ≠ d.pool := by
  rintro rfl
  rcases ha with hi | hs
  · exact he.invoker_pool hi
  · simp [he.signed_pool] at hs

lemma Env.External.not_manager {d} {env : Env} (he : env.External d) {a}
    (ha : env.Authorized a) : a ≠ d.manager := by
  rintro rfl
  rcases ha with hi | hs
  · exact he.invoker_manager hi
  · simp [he.signed_manager] at hs

/-- From `w` to `w'`, managed assets and cash changed by the same, and the manager holds what it
held. -/
structure World.Neutral (d : Deployment) (w w' : World) : Prop where
  netLent : ∀ t, w'.netLent d t = w.netLent d t
  custody : ∀ t, w'.custody d t = w.custody d t

namespace World.Neutral
variable {d : Deployment} {token : Address} {w w' : World}

lemma of_flow {inflow outflow} (h : Flow d token inflow outflow 0 w.bank w'.bank)
    (hm : ∀ t, w'.pool.totalManagedAssets t =
      w.pool.totalManagedAssets t + if t = token then inflow - outflow else 0) :
    Neutral d w w' where
  netLent := by
    intro t
    unfold World.netLent
    rw [World.cash_of_flow h,hm]
    omega
  custody := by
    intro t
    rw [World.custody_of_flow h]
    simp

lemma of_same (hb : w'.bank = w.bank)
    (hm : w'.pool.totalManagedAssets = w.pool.totalManagedAssets) : Neutral d w w' := by
  constructor <;> intro t <;>
    simp only [World.netLent,World.custody,World.cash,World.donatedToPool,
      World.donatedToManager,hb,hm]

lemma of_transfer {env : Env} (he : env.External d) {token src dst amount}
    (h : w.bank.transfer env ⟨token,src,dst,amount,env.invoker⟩ = .ok w'.bank)
    (hm : w'.pool.totalManagedAssets = w.pool.totalManagedAssets) : Neutral d w w' := by
  have hv := Bank.moved_of_transfer h
  have ha : env.Authorized src := Bank.signed_of_transfer h
  have hp := he.not_pool ha
  have hg := he.not_manager ha
  have hl : ∀ t own, own = d.pool ∨ own = d.manager →
      w'.bank.balance t own - w'.bank.total (unsolicited d t own) =
        w.bank.balance t own - w.bank.total (unsolicited d t own) := by
    intro t own hh
    have hn : own ≠ src := by
      rcases hh with rfl | rfl
      · exact hp.symm
      · exact hg.symm
    rw [hv.balance,hv.total_eq]
    simp only [Bank.delta,unsolicited,he.invoker_pool,he.invoker_manager,ne_eq,
      not_false_eq_true,and_true,decide_eq_true_eq,if_neg hn,sub_zero]
    by_cases ht : t = token
    · by_cases hd : own = dst
      · simp [ht,hd]
      · simp [ht,hd,Ne.symm hd]
    · simp [ht,Ne.symm ht]
  constructor
  · intro t
    have hb := hl t d.pool (.inl rfl)
    simp only [World.netLent,World.cash,World.donatedToPool,hm]
    omega
  · intro t
    have hb := hl t d.manager (.inr rfl)
    simp only [World.custody,World.donatedToManager]
    omega

end World.Neutral

namespace PoolCall
variable {d : Deployment} {env : Env} {w : World} {pw : PoolWorld} {c : PoolCall}

lemma not_loanManager (he : env.External d) (hm : w.pool.loanManager = some d.manager)
    (h : ∃ loanManager, w.pool.loanManager = some loanManager ∧ env.Authorized loanManager) :
    False := by
  obtain ⟨loanManager,hl,ha⟩ := h
  rw [hm] at hl
  cases hl
  exact he.not_manager ha rfl

lemma neutral (he : env.External d) (hm : w.pool.loanManager = some d.manager)
    (h : c.exec d.pool env w.toPoolWorld = .ok pw) :
    World.Neutral d w { w with toPoolWorld := pw } := by
  cases c with
  | deposit =>
    obtain ⟨ha,⟨_,hp⟩,hv⟩ := posted_of_deposit h
    refine .of_flow (Flow.paidIn hv (.inl rfl) (he.not_pool ha) (he.not_manager ha)) fun t => ?_
    simp only [hp.books,post,mint,update_apply]
    split <;> simp_all
  | withdraw =>
    obtain ⟨ha,ast,hp,hv⟩ := posted_of_withdraw h
    refine .of_flow (Flow.paidOut hv (.inl rfl) (he.not_pool ha) (he.not_manager ha)) fun t => ?_
    simp only [hp.books,post,burn,update_apply]
    split <;> simp_all [sub_eq_add_neg]
  | emergencyWithdraw =>
    obtain ⟨ha,ast,hp,hv⟩ := posted_of_emergencyWithdraw h
    refine .of_flow (Flow.paidOut hv (.inl rfl) (he.not_pool ha) (he.not_manager ha)) fun t => ?_
    simp only [hp.books,post,burn,update_apply]
    split <;> simp_all [sub_eq_add_neg]
  | distributeYield «from» token amount =>
    obtain ⟨ha,hp,hv⟩ := posted_of_distributeYield h
    refine .of_flow (Flow.paidIn hv (.inl rfl) (he.not_pool ha) (he.not_manager ha)) fun t => ?_
    simp only [hp.books,post,gain,update_apply]
    split <;> simp_all
  | recordLoanYield =>
    simp only [exec,bind_eq_ok] at h
    obtain ⟨p,hy,-⟩ := h
    exact (not_loanManager he hm (posted_of_recordLoanYield hy).1).elim
  | recordLoanLoss =>
    simp only [exec,bind_eq_ok] at h
    obtain ⟨p,hl,-⟩ := h
    exact (not_loanManager he hm (posted_of_recordLoanLoss hl).1).elim
  | disburse => exact (not_loanManager he hm (moved_of_disburse h).1).elim
  | transfer =>
    simp only [exec,eq_ok] at h
    obtain ⟨_,hb,rfl⟩ := h
    exact .of_transfer he hb rfl
  | adjustOutstanding =>
    obtain ⟨e,hmk,-,hk⟩ := PoolCall.posts h
    simp only [exec,eq_ok] at h
    obtain ⟨p,-,rfl⟩ := h
    refine .of_same rfl ((congrArg totalManagedAssets hk).trans ?_)
    rcases hmk with rfl | rfl <;> rfl
  | initializePool _ | setMaxPoolSize _ _ | setWithdrawalCooldown _ | proposeAdmin _ | acceptAdmin
  | setAdmin _ | pause | unpause | setCircuitBreaker _ | setLoanManager _ =>
    obtain ⟨e,hmk,-,hk⟩ := PoolCall.posts h
    simp only [exec,eq_ok] at h
    obtain ⟨p,-,rfl⟩ := h
    cases hmk
    exact .of_same rfl (congrArg totalManagedAssets hk)

lemma loanManager_kept (hc : ∀ loanManager, c = .setLoanManager loanManager →
    loanManager = d.manager) (hm : w.pool.loanManager = some d.manager)
    (h : c.exec d.pool env w.toPoolWorld = .ok pw) : pw.pool.loanManager = some d.manager := by
  cases c with
  | deposit =>
    obtain ⟨-,⟨_,hp⟩,-⟩ := LendingPool.posted_of_deposit h
    rw [hp.loanManager,hm]
  | withdraw =>
    obtain ⟨-,ast,hp,-⟩ := LendingPool.posted_of_withdraw h
    rw [hp.loanManager,hm]
  | emergencyWithdraw =>
    obtain ⟨-,ast,hp,-⟩ := LendingPool.posted_of_emergencyWithdraw h
    rw [hp.loanManager,hm]
  | distributeYield «from» token amount =>
    rw [(LendingPool.posted_of_distributeYield h).2.1.loanManager,hm]
  | disburse => rw [(LendingPool.moved_of_disburse h).2.2.1,hm]
  | recordLoanYield =>
    simp only [exec,eq_ok] at h
    obtain ⟨p,hy,rfl⟩ := h
    rw [(LendingPool.posted_of_recordLoanYield hy).2.2.loanManager,hm]
  | recordLoanLoss =>
    simp only [exec,eq_ok] at h
    obtain ⟨p,hl,rfl⟩ := h
    rw [(LendingPool.posted_of_recordLoanLoss hl).2.2.loanManager,hm]
  | setLoanManager loanManager =>
    simp only [exec,LendingPool.setLoanManager,eq_ok] at h
    obtain ⟨p,⟨_,-,-,rfl⟩,rfl⟩ := h
    rw [← hc loanManager rfl]
  | transfer =>
    simp only [exec,eq_ok] at h
    obtain ⟨_,-,rfl⟩ := h
    exact hm
  | initializePool _ | setMaxPoolSize _ _ | setWithdrawalCooldown _ | proposeAdmin _ | acceptAdmin
  | setAdmin _ | pause | unpause | setCircuitBreaker _ | adjustOutstanding _ _ =>
    simp only [exec,LendingPool.initializePool,LendingPool.setMaxPoolSize,
      LendingPool.setWithdrawalCooldown,LendingPool.proposeAdmin,LendingPool.acceptAdmin,
      LendingPool.setAdmin,LendingPool.pause,LendingPool.unpause,LendingPool.setCircuitBreaker,
      LendingPool.adjustOutstanding,eq_ok] at h
    grind [LendingPool.publish,bind_eq_ok,pure_eq_ok]

end PoolCall

end DukaPay
