import DukaPay.Protocol.Accounts

/-! A request is pending until it is approved, cancelled or rejected; an approved loan ends repaid,
defaulted or liquidated. -/
namespace DukaPay
open Contractlib
variable {d : Deployment} {env : Env} {w w' : World} {id : Nat}

/-- What one call may do to the record under `id`, with the loan counter before and after. -/
def Loan.Proceeds (id counter counter' : Nat) : Option Loan → Option Loan → Prop
  | none,none => True
  | none,some new => new.status = .Pending ∧ counter < id ∧ id ≤ counter'
  | some old,some new => new.status = old.status ∨ LoanStatus.Next old.status new.status
  | some old,none => LoanManager.Purgable old.status

lemma Loan.Proceeds.refl (id counter counter' o) : Proceeds id counter counter' o o := by
  cases o with
  | none => trivial
  | some => exact .inl rfl

structure World.Proceeds (w w' : World) : Prop where
  counter_le : w.manager.loanCounter ≤ w'.manager.loanCounter
  record : ∀ id, Loan.Proceeds id w.manager.loanCounter w'.manager.loanCounter
    (w.manager.loans.lookup id) (w'.manager.loans.lookup id)

lemma World.Proceeds.of_same (hl : w'.manager.loans = w.manager.loans)
    (hc : w'.manager.loanCounter = w.manager.loanCounter) : World.Proceeds w w' := by
  refine ⟨hc.ge,fun id => ?_⟩
  rw [hl]
  exact .refl id _ _ _

lemma Posting.proceeds {new x} (h : Posting d id new x w w') : World.Proceeds w w' := by
  refine ⟨h.counter_le,fun j => ?_⟩
  obtain rfl | hj := eq_or_ne j id
  · have hm := h.moves
    rw [h.loans.lookup_self]
    generalize w.manager.loans.lookup j = old at hm ⊢
    cases hm with
    | request new hs => exact ⟨hs,by omega,by omega⟩
    | change old new hs => exact hs
    | purge old hs => exact hs
  · rw [h.loans.lookup_ne hj]
    exact .refl j _ _ _

lemma proceeds_of_checkDefaults {ids n} (hw : w.Sound d)
    (h : LoanManager.checkDefaults d env ids w = .ok (w',n)) : World.Proceeds w w' := by
  have hb := checkDefaults_induction
    (I := fun _ u => u.manager.loanCounter = w.manager.loanCounter ∧
      ∀ j, u.manager.loans.lookup j = w.manager.loans.lookup j ∨
        ∃ old new, w.manager.loans.lookup j = some old ∧ old.status = .Approved ∧
          u.manager.loans.lookup j = some new ∧ new.status = .Defaulted)
    (fun _ _ _ hu => hu) ?_ hw h ⟨rfl,fun _ => .inl rfl⟩
  · obtain ⟨ht,hr⟩ := hb
    refine ⟨ht.ge,fun j => ?_⟩
    rcases hr j with hs | ⟨old,new,ho,ha,hn,hd⟩
    · rw [hs]
      exact .refl j _ _ _
    rw [ho,hn]
    refine .inr ?_
    rw [ha,hd]
    exact .default
  · rintro id _ u u' - ⟨old,ho,ha,-,hp⟩ ⟨ht,hr⟩
    refine ⟨?_,fun j => ?_⟩
    · have hm := hp.moves
      rw [ho] at hm
      cases hm with
      | change _ _ _ hc => rw [hc,ht]
    · obtain rfl | hj := eq_or_ne j id
      · -- a loan that is still approved was not looked at before
        rcases hr j with hs | ⟨_,new,-,-,hn,hd⟩
        · exact .inr ⟨old,_,hs.symm.trans ho,ha,hp.loans.lookup_self,rfl⟩
        rw [ho] at hn
        cases hn
        rw [ha] at hd
        cases hd
      · rw [hp.loans.lookup_ne hj]
        exact hr j

lemma LoanCall.proceeds {c : LoanCall} (hw : w.Sound d) (he : env.External d)
    (h : c.exec d env w = .ok w') : World.Proceeds w w' := by
  rcases posting_or_batch hw he h with ⟨id,new,x,hp,-⟩ | ⟨ids,n,rfl,hb⟩
  · exact hp.proceeds
  · exact proceeds_of_checkDefaults hw hb

lemma Invocation.proceeds (i : Invocation d) (hw : w.Sound d)
    (h : i.call.exec d i.env w = .ok w') : World.Proceeds w w' := by
  obtain ⟨_,call,he,_⟩ := i
  cases call with
  | pool =>
    simp only [Call.exec,eq_ok] at h
    obtain ⟨_,-,rfl⟩ := h
    exact .of_same rfl rfl
  | loan => exact LoanCall.proceeds hw he h
  | setting =>
    simp only [Call.exec,eq_ok] at h
    obtain ⟨_,hm,rfl⟩ := h
    obtain ⟨-,hr⟩ := SettingCall.keeps hw.admin hm
    exact .of_same hr.loans hr.loanCounter

structure World.Ended (id : Nat) (status : LoanStatus) (w : World) : Prop where
  id_le : id ≤ w.manager.loanCounter
  record : ∀ loan, w.manager.loans.lookup id = some loan → loan.status = status

structure World.Purged (id : Nat) (w : World) : Prop where
  id_le : id ≤ w.manager.loanCounter
  record : w.manager.loans.lookup id = none

lemma World.Ended.step {status : LoanStatus} (htr : status.Terminal)
    (h : w.Ended id status) (hp : World.Proceeds w w') : w'.Ended id status := by
  refine ⟨le_trans h.id_le hp.counter_le,fun loan hl => ?_⟩
  have hr := hp.record id
  have hd := h.id_le
  rw [hl] at hr
  cases ho : w.manager.loans.lookup id with
  | none =>
    rw [ho] at hr
    obtain ⟨-,_,-⟩ := hr
    omega
  | some old =>
    rw [ho] at hr
    have ht := h.record old ho
    rcases hr with hs | hn
    · rw [hs,ht]
    · rw [ht] at hn
      exact absurd hn htr.not_next

lemma World.Purged.step (h : w.Purged id) (hp : World.Proceeds w w') : w'.Purged id := by
  refine ⟨le_trans h.id_le hp.counter_le,?_⟩
  have hr := hp.record id
  have hd := h.id_le
  rw [h.record] at hr
  cases hl : w'.manager.loans.lookup id with
  | none => rfl
  | some =>
    rw [hl] at hr
    obtain ⟨-,_,-⟩ := hr
    omega

lemma Genesis.proceeds_induction {I : World → Prop} (g : Genesis d) (is is')
    (hs : ∀ u u', I u → World.Proceeds u u' → I u') (h : I (g.after is)) :
    I (g.after (is ++ is')) := by
  have hr := Transactional.run_induction (S := protocol d)
    (I := fun u => u.InOrder d ∧ I u) (s := g.after is)
    (fun u i u' hu hx => ⟨i.inOrder hu.1 hx,hs u u' hu.2 (i.proceeds hu.1.sound hx)⟩)
    ⟨g.inOrder is,h⟩ is'
  rw [Genesis.after,Transactional.run_append]
  exact hr.2

structure Loan.WellFormed (loan : Loan) : Prop where
  principalPaid : 0 ≤ loan.principalPaid ∧ loan.principalPaid ≤ loan.amount
  accruedInterest : 0 ≤ loan.accruedInterest
  accruedLateFee : 0 ≤ loan.accruedLateFee
  interestResidual : 0 ≤ loan.interestResidual ∧ loan.interestResidual < 1000000
  collateralAmount : 0 ≤ loan.collateralAmount
  approved : loan.status = .Approved →
    0 < loan.amount - loan.principalPaid + loan.accruedInterest + loan.accruedLateFee
  repaid : loan.status = .Repaid →
    loan.principalPaid = loan.amount ∧ loan.accruedInterest = 0 ∧ loan.accruedLateFee = 0

lemma Loan.Sound.wellFormed {loan : Loan} (h : loan.Sound d) : loan.WellFormed where
  principalPaid := ⟨h.principalPaid_nonneg,h.principalPaid_le⟩
  accruedInterest := h.accruedInterest_nonneg
  accruedLateFee := h.accruedLateFee_nonneg
  interestResidual := ⟨h.interestResidual_nonneg,h.interestResidual_lt⟩
  collateralAmount := h.collateralAmount_nonneg
  approved := h.debt_pos
  repaid := h.paid_off

/-- **Lifecycle**: the records are well formed and their ids given out; every call moves every
record along the lifecycle; a final status stays until the record is purged, and the id of a purged
record is not used again. -/
theorem loan_lifecycle (g : Genesis d) (is : List (Invocation d)) :
    let w := g.after is
    (∀ id loan, w.manager.loans.lookup id = some loan →
      loan.WellFormed ∧ id ≤ w.manager.loanCounter) ∧
    (∀ (i : Invocation d) (w' : World), i.call.exec d i.env w = .ok w' → ∀ id,
      Loan.Proceeds id w.manager.loanCounter w'.manager.loanCounter
        (w.manager.loans.lookup id) (w'.manager.loans.lookup id)) ∧
    (∀ id loan, w.manager.loans.lookup id = some loan → loan.status.Terminal →
      ∀ (is' : List (Invocation d)) (loan' : Loan),
        (g.after (is ++ is')).manager.loans.lookup id = some loan' → loan'.status = loan.status) ∧
    ∀ id, id ≤ w.manager.loanCounter → w.manager.loans.lookup id = none →
      ∀ is' : List (Invocation d), (g.after (is ++ is')).manager.loans.lookup id = none := by
  have hw := g.inOrder is
  refine ⟨fun id loan hl => ⟨(hw.sound.loan id loan hl).wellFormed,hw.sound.id_le id loan hl⟩,
    fun i w' h id => (i.proceeds hw.sound h).record id,?_,?_⟩
  · intro id loan hl ht is' loan' hl'
    have he : (g.after is).Ended id loan.status := by
      refine ⟨hw.sound.id_le id loan hl,fun l hl2 => ?_⟩
      rw [hl] at hl2
      cases hl2
      rfl
    exact (g.proceeds_induction is is' (fun _ _ hu hp => hu.step ht hp) he).record loan' hl'
  · intro id hid hn is'
    exact (g.proceeds_induction (I := World.Purged id) is is' (fun _ _ hu hp => hu.step hp)
      ⟨hid,hn⟩).record

end DukaPay
