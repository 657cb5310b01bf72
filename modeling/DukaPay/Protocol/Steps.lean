import DukaPay.Protocol.Posting

/-! One lemma for each call that the operations of the loan manager are made of. -/
namespace DukaPay
open Contractlib LendingPool World

/-- From `m` to `m'`, the record under `id` was set to `new`, `delta` was added to what is
outstanding in the lent token, and `said` is what the log tells of. -/
structure LoanManager.Updates (d : Deployment) (id : Nat) (new : Option Loan) (delta : Int)
    (said : List (LoanStatus × Nat)) (m m' : LoanManager) : Prop where
  loans : Storage.Writes id new m.loans m'.loans
  settings : m'.toSettings = m.toSettings
  loanCounter : m'.loanCounter = m.loanCounter
  fits : m.Fits → m'.Fits
  outstanding : ∀ t, m'.totalOutstanding t = m.totalOutstanding t + if t = d.token then delta else 0
  announced : m'.announced = said ++ m.announced

namespace LoanManager.Updates
variable {d : Deployment} {id : Nat} {new new' : Option Loan} {delta delta' : Int}
  {said said' : List (LoanStatus × Nat)} {m m' m'' : LoanManager}

lemma refl (h : m.loans.lookup id = new) : Updates d id new 0 [] m m :=
  ⟨Storage.writes_self h,rfl,rfl,fun hm => hm,fun _ => by simp,rfl⟩

lemma trans (h : Updates d id new delta said m m') (h' : Updates d id new' delta' said' m' m'') :
    Updates d id new' (delta + delta') (said' ++ said) m m'' where
  loans := h.loans.trans h'.loans
  settings := h'.settings.trans h.settings
  loanCounter := h'.loanCounter.trans h.loanCounter
  fits := fun hm => h'.fits (h.fits hm)
  outstanding := by
    intro t
    rw [h'.outstanding,h.outstanding]
    split <;> omega
  announced := by rw [h'.announced,h.announced,List.append_assoc]

lemma hear (heard) (h : Updates d id new delta said m m') (hl : m''.loans = m'.loans)
    (hs : m''.toSettings = m'.toSettings) (hc : m''.loanCounter = m'.loanCounter)
    (ht : m''.totalOutstanding = m'.totalOutstanding)
    (he : m''.announced = heard ++ m'.announced) :
    Updates d id new delta (heard ++ said) m m'' where
  loans := by
    rw [hl]
    exact h.loans
  settings := hs.trans h.settings
  loanCounter := hc.trans h.loanCounter
  fits := by
    intro hm t
    rw [ht]
    exact h.fits hm t
  outstanding := by
    intro t
    rw [ht]
    exact h.outstanding t
  announced := by rw [he,h.announced,List.append_assoc]

lemma congr (h : Updates d id new delta said m m') (hl : m''.loans = m'.loans)
    (hs : m''.toSettings = m'.toSettings) (hc : m''.loanCounter = m'.loanCounter)
    (ht : m''.totalOutstanding = m'.totalOutstanding) (he : m''.announced = m'.announced) :
    Updates d id new delta said m m'' := h.hear [] hl hs hc ht he

lemma setLoan (d id loan m) : Updates d id (some loan) 0 [] m (m.setLoan id loan) :=
  ⟨Storage.writes_insert id loan m.loans,rfl,rfl,fun hm => hm,
    fun _ => by simp [LoanManager.setLoan],rfl⟩

lemma adjust (id) (h : m.adjustTotalOutstanding d.token delta = .ok m') : Updates d id
    (m.loans.lookup id) delta [] m m' := by
  unfold adjustTotalOutstanding at h
  split at h
  · next hz =>
    cases h
    rw [hz]
    exact .refl rfl
  simp only [eq_ok] at h
  obtain ⟨_,⟨hf,rfl⟩,-,rfl⟩ := h
  refine ⟨Storage.writes_self rfl,rfl,rfl,fun hm t => ?_,fun t => ?_,rfl⟩
  · simp only [Function.update_apply]
    split
    · exact hf
    · exact hm t
  simp only [Function.update_apply]
  split
  · next ht => rw [ht]
  · rw [add_zero]

lemma close (id) {loan} (h : m.closeOutstanding d.token loan = .ok m') :
    Updates d id (m.loans.lookup id) (-loan.amount) [] m m' := by
  simp only [closeOutstanding,eq_ok,IntType.checkedNeg] at h
  obtain ⟨_,hd,h⟩ := h
  obtain ⟨-,rfl⟩ := IntType.check_eq_some.mp hd
  exact .adjust id h

end LoanManager.Updates

namespace World
variable {d : Deployment} {env : Env} {w w' : World} {pool token src dst recipient : Address}
  {amount principal recovered : Int} {id : Nat}

lemma of_transfer (h : w.transfer d env token src dst amount = .ok w') : ∃ b, w' =
    { w with bank := b } ∧ Bank.Moved ⟨token,src,dst,amount,some d.manager⟩ w.bank b := by
  simp only [transfer,eq_ok] at h
  obtain ⟨b,hb,rfl⟩ := h
  exact ⟨b,rfl,Bank.moved_of_transfer hb⟩

lemma of_transferPositive (h0 : 0 ≤ amount)
    (h : w.transferPositive d env token src dst amount = .ok w') : ∃ b, w' = { w with bank := b } ∧
    (amount = 0 ∧ b = w.bank ∨ Bank.Moved ⟨token,src,dst,amount,some d.manager⟩ w.bank b) := by
  unfold transferPositive at h
  split at h
  · obtain ⟨b,rfl,hm⟩ := of_transfer h
    exact ⟨b,rfl,.inr hm⟩
  · cases h
    exact ⟨w.bank,rfl,.inl ⟨by omega,rfl⟩⟩

lemma of_recordLoanYield (h : w.recordLoanYield d env pool token amount = .ok w') : ∃ p, w' =
    { w with pool := p } ∧ pool = d.pool ∧ 0 ≤ amount ∧
    LendingPool.Posted (gainEntry token amount) w.pool p := by
  simp only [recordLoanYield,eq_ok] at h
  obtain ⟨hl,p,hp,rfl⟩ := h
  obtain ⟨-,h0,hs⟩ := posted_of_recordLoanYield hp
  exact ⟨p,rfl,hl,h0,hs⟩

lemma of_recordLoanLoss (h : w.recordLoanLoss d env pool token amount = .ok w') : ∃ p, w' =
    { w with pool := p } ∧ pool = d.pool ∧ 0 ≤ amount ∧
    LendingPool.Posted (lossEntry token amount) w.pool p := by
  simp only [recordLoanLoss,eq_ok] at h
  obtain ⟨hl,p,hp,rfl⟩ := h
  obtain ⟨-,h0,hs⟩ := posted_of_recordLoanLoss hp
  exact ⟨p,rfl,hl,h0,hs⟩

lemma of_recordPoolRecovery (h : w.recordPoolRecovery d env token principal recovered = .ok w') :
    ∃ p, w' = { w with pool := p } ∧
    Settled token (max 0 (recovered - principal)) (max 0 (principal - recovered)) w.pool p := by
  simp only [recordPoolRecovery,bind_eq_ok] at h
  obtain ⟨pool,-,h⟩ := h
  split at h
  · next hl =>
    simp only [eq_ok] at h
    obtain ⟨_,⟨-,rfl⟩,h⟩ := h
    obtain ⟨p,rfl,-,-,hp⟩ := of_recordLoanYield h
    rw [max_eq_right (by omega),max_eq_left (by omega)]
    exact ⟨p,rfl,.of_gain hp⟩
  split at h
  · next hl =>
    simp only [eq_ok] at h
    obtain ⟨_,⟨-,rfl⟩,h⟩ := h
    obtain ⟨p,rfl,-,-,hp⟩ := of_recordLoanLoss h
    rw [max_eq_left (by omega),max_eq_right (by omega)]
    exact ⟨p,rfl,.of_loss hp⟩
  cases h
  rw [max_eq_left (by omega),max_eq_left (by omega)]
  exact ⟨w.pool,rfl,.refl token w.pool⟩

lemma of_disburse (h : w.disburse d env pool recipient token amount = .ok w') : ∃ b, w' =
    { w with bank := b } ∧ 0 < amount ∧
    Bank.Moved ⟨token,d.pool,recipient,amount,some d.pool⟩ w.bank b := by
  simp only [disburse,eq_ok] at h
  obtain ⟨-,pw,hw,rfl⟩ := h
  obtain ⟨-,h0,hp,hm⟩ := moved_of_disburse hw
  refine ⟨pw.bank,?_,h0,hm⟩
  rw [← hp]

variable {loan : Loan}

lemma of_releaseCollateralInternal (h : w.releaseCollateralInternal d env id recipient = .ok w')
    (hk : w.manager.token = some d.token) (hl : w.manager.loans.lookup id = some loan)
    (h0 : 0 ≤ loan.collateralAmount) (hp : recipient ≠ d.pool) (hm : recipient ≠ d.manager) :
    w'.pool = w.pool ∧ Flow d d.token 0 0 (-loan.collateralAmount) w.bank w'.bank ∧
    LoanManager.Updates d id (some { loan with collateralAmount := 0 }) 0 [] w.manager
      w'.manager := by
  simp only [releaseCollateralInternal,eq_ok,hl,Option.some.injEq,exists_eq_left'] at h
  split at h
  · next hz =>
    cases h
    have hr : loan.collateralAmount = 0 := by omega
    refine ⟨rfl,?_,.refl ?_⟩
    · rw [hr]
      exact .refl d d.token w.bank
    · rw [hl,← hr]
  · simp only [eq_ok] at h
    obtain ⟨token,ht,_,hw1,rfl⟩ := h
    obtain rfl : token = d.token := Option.some.inj (ht.symm.trans hk)
    obtain ⟨_,rfl,hv⟩ := of_transfer hw1
    exact ⟨rfl,.released hv hp hm,
      (LoanManager.Updates.setLoan d id _ w.manager).congr rfl rfl rfl rfl rfl⟩

lemma pool_of_seizeCollateralInternal (h : w.seizeCollateralInternal d env id = .ok w') :
    w'.pool = w.pool := by
  simp only [seizeCollateralInternal,eq_ok] at h
  obtain ⟨_,-,h⟩ := h
  split at h
  · cases h
    rfl
  simp only [eq_ok] at h
  obtain ⟨_,-,_,-,_,hw1,rfl⟩ := h
  obtain ⟨_,rfl,-⟩ := of_transfer hw1
  rfl

lemma of_seizeCollateralInternal (h : w.seizeCollateralInternal d env id = .ok w')
    (hk : w.manager.token = some d.token) (hp : w.manager.lendingPool = some d.pool)
    (hn : w.manager.loans.lookup id = some loan) (h0 : 0 ≤ loan.collateralAmount) : w'.pool =
    w.pool ∧ Flow d d.token loan.collateralAmount 0 (-loan.collateralAmount) w.bank w'.bank ∧
    LoanManager.Updates d id (some { loan with collateralAmount := 0 }) 0 [] w.manager
      w'.manager := by
  simp only [seizeCollateralInternal,eq_ok,hn,Option.some.injEq,exists_eq_left'] at h
  split at h
  · next hz =>
    cases h
    have hr : loan.collateralAmount = 0 := by omega
    refine ⟨rfl,?_,.refl ?_⟩
    · rw [hr]
      exact .refl d d.token w.bank
    · rw [hn,← hr]
  · simp only [eq_ok] at h
    obtain ⟨token,ht,lp,hl,_,hw1,rfl⟩ := h
    obtain rfl : token = d.token := Option.some.inj (ht.symm.trans hk)
    obtain rfl : lp = d.pool := Option.some.inj (hl.symm.trans hp)
    obtain ⟨_,rfl,hm⟩ := of_transfer hw1
    exact ⟨rfl,.seized hm,(LoanManager.Updates.setLoan d id _ w.manager).congr rfl rfl rfl rfl rfl⟩

end World

end DukaPay
