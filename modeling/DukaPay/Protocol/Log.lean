import DukaPay.Protocol.Accounts

/-! The log of the manager follows the records: each approved loan was announced, and a loan was
announced as defaulted exactly if it has ended so. A liquidated loan is never announced as such. -/
namespace DukaPay
open Contractlib List
variable {d : Deployment} {w w' : World} {id : Nat} {status : LoanStatus}

lemma Loan.mem_announcement {old new : Option Loan} {j} :
    (status,j) ∈ announcement id old new ↔ j = id ∧ (status = .Approved ∨ status = .Defaulted) ∧
    ∃ o n, old = some o ∧ new = some n ∧ n.status = status ∧ o.status ≠ status := by
  cases old with
  | none => simp [announcement]
  | some o =>
    cases new with
    | none => simp [announcement]
    | some n =>
      rw [announcement]
      constructor
      · intro h
        split at h
        · next hc =>
          cases mem_singleton.mp h
          exact ⟨rfl,hc.2,o,n,rfl,rfl,rfl,hc.1.symm⟩
        · exact absurd h not_mem_nil
      · rintro ⟨rfl,hs,_,_,⟨⟩,⟨⟩,rfl,hn⟩
        rw [if_pos ⟨hn.symm,hs⟩]
        exact mem_singleton_self _

/-- **The log and the records.** -/
structure World.Logged (w : World) : Prop where
  id_pos : ∀ id loan, w.manager.loans.lookup id = some loan → 0 < id
  approved : ∀ id loan, w.manager.loans.lookup id = some loan → loan.status = .Approved →
    (.Approved,id) ∈ w.manager.announced
  defaulted : ∀ id loan, w.manager.loans.lookup id = some loan →
    ((.Defaulted,id) ∈ w.manager.announced ↔ loan.status = .Defaulted)
  id_le : ∀ id, (.Defaulted,id) ∈ w.manager.announced → id ≤ w.manager.loanCounter

namespace Posting
variable {new : Option Loan} {x : Amounts}

lemma mem_announced (h : Posting d id new x w w') {j} : (status,j) ∈ w'.manager.announced ↔
    (status,j) ∈ Loan.announcement id (w.manager.loans.lookup id) new ∨
    (status,j) ∈ w.manager.announced := by
  rw [h.announced,mem_append]

lemma mem_announced_ne (h : Posting d id new x w w') {j} (hj : j ≠ id) :
    (status,j) ∈ w'.manager.announced ↔ (status,j) ∈ w.manager.announced := by
  rw [h.mem_announced,Loan.mem_announcement]
  exact or_iff_right fun hm => hj hm.1

lemma id_pos {loan : Loan} (hw : w.Logged) (h : Posting d id (some loan) x w w') :
    0 < id := by
  have hm := h.moves
  cases ho : w.manager.loans.lookup id with
  | none =>
    rw [ho] at hm
    cases hm with
    | request => omega
  | some old => exact hw.id_pos id old ho

lemma approved_announced {loan : Loan} (hw : w.Logged) (h : Posting d id (some loan) x w w')
    (ha : loan.status = .Approved) : (.Approved,id) ∈ w'.manager.announced := by
  rw [h.mem_announced,Loan.mem_announcement]
  have hm := h.moves
  cases ho : w.manager.loans.lookup id with
  | none =>
    rw [ho] at hm
    cases hm with
    | request _ hs => cases hs.symm.trans ha
  | some old =>
    by_cases hs : old.status = .Approved
    · exact .inr (hw.approved id old ho hs)
    · exact .inl ⟨rfl,.inl rfl,old,loan,rfl,rfl,ha,hs⟩

/-- Among the moves of a status, a default is the only one that ends so. -/
lemma defaulted_iff {loan : Loan} (hw : w.Logged) (h : Posting d id (some loan) x w w') :
    (.Defaulted,id) ∈ w'.manager.announced ↔ loan.status = .Defaulted := by
  rw [h.mem_announced,Loan.mem_announcement]
  have hm := h.moves
  cases ho : w.manager.loans.lookup id with
  | none =>
    rw [ho] at hm
    cases hm with
    | request _ hs hid =>
      refine ⟨?_,fun hd => by cases hs.symm.trans hd⟩
      rintro (⟨-,-,_,_,⟨⟩,-⟩ | hl)
      have := hw.id_le id hl
      omega
  | some old =>
    rw [ho] at hm
    rw [hw.defaulted id old ho]
    cases hm with
    | change _ _ hs =>
      constructor
      · rintro (⟨-,-,_,_,⟨⟩,⟨⟩,hd,-⟩ | hd)
        · exact hd
        · rcases hs with hs | hn
          · exact hs.trans hd
          · rw [hd] at hn
            cases hn
      · intro hd
        by_cases hod : old.status = .Defaulted
        · exact .inr hod
        · exact .inl ⟨rfl,.inr rfl,old,loan,rfl,rfl,hd,hod⟩

lemma logged (hs : w.Sound d) (hw : w.Logged) (h : Posting d id new x w w') : w'.Logged := by
  refine ⟨fun j loan hl => ?_,fun j loan hl ha => ?_,fun j loan hl => ?_,fun j hj => ?_⟩
  · obtain rfl | hj := eq_or_ne j id
    · obtain rfl := h.loans.lookup_self.symm.trans hl
      exact h.id_pos hw
    · exact hw.id_pos j loan ((h.loans.lookup_ne hj).symm.trans hl)
  · obtain rfl | hj := eq_or_ne j id
    · obtain rfl := h.loans.lookup_self.symm.trans hl
      exact h.approved_announced hw ha
    · rw [h.mem_announced_ne hj]
      exact hw.approved j loan ((h.loans.lookup_ne hj).symm.trans hl) ha
  · obtain rfl | hj := eq_or_ne j id
    · obtain rfl := h.loans.lookup_self.symm.trans hl
      exact h.defaulted_iff hw
    · rw [h.mem_announced_ne hj]
      exact hw.defaulted j loan ((h.loans.lookup_ne hj).symm.trans hl)
  · refine le_trans ?_ h.counter_le
    rcases h.mem_announced.mp hj with hm | hm
    · obtain ⟨rfl,-,old,-,ho,-⟩ := Loan.mem_announcement.mp hm
      exact hs.id_le j old ho
    · exact hw.id_le j hm

end Posting

lemma World.Logged.of_same (h : w.Logged) (hl : w'.manager.loans = w.manager.loans)
    (hc : w'.manager.loanCounter = w.manager.loanCounter)
    (ha : w'.manager.announced = w.manager.announced) : w'.Logged := by
  refine ⟨?_,?_,?_,?_⟩
  · rw [hl]
    exact h.id_pos
  · rw [hl,ha]
    exact h.approved
  · rw [hl,ha]
    exact h.defaulted
  · rw [hc,ha]
    exact h.id_le

lemma Invocation.logged (i : Invocation d) (hs : w.Sound d) (hw : w.Logged)
    (h : i.call.exec d i.env w = .ok w') : w'.Logged := by
  obtain ⟨_,call,he,_⟩ := i
  cases call with
  | pool =>
    simp only [Call.exec,eq_ok] at h
    obtain ⟨_,-,rfl⟩ := h
    exact hw.of_same rfl rfl rfl
  | loan =>
    have hr := (LoanCall.postings hs he h).induction (I := fun u => u.Sound d ∧ u.Logged)
      (fun _ _ _ _ _ hu hp => ⟨hp.world_sound hu.1,hp.logged hu.1 hu.2⟩) ⟨hs,hw⟩
    exact hr.2
  | setting =>
    simp only [Call.exec,eq_ok] at h
    obtain ⟨_,hm,rfl⟩ := h
    obtain ⟨-,hr⟩ := SettingCall.keeps hs.admin hm
    exact hw.of_same hr.loans hr.loanCounter (SettingCall.configured hm).announced

lemma Genesis.world_logged (g : Genesis d) : g.world.Logged := by
  obtain ⟨_,_,_,_,h⟩ := g.manager
  simp only [LoanManager.initializeManager,eq_ok] at h
  obtain ⟨-,-,-,-,-,h⟩ := h
  have ha : g.world.manager.announced = [] := by
    rw [← h]
    rfl
  have hn : ∀ id loan, g.world.manager.loans.lookup id ≠ some loan := by
    intro id loan hl
    rw [g.loans_eq.1] at hl
    cases hl
  refine ⟨fun id loan hl => absurd hl (hn id loan),fun id loan hl => absurd hl (hn id loan),
    fun id loan hl => absurd hl (hn id loan),fun id hm => ?_⟩
  rw [ha] at hm
  exact absurd hm not_mem_nil

lemma Genesis.logged (g : Genesis d) (is) : (g.after is).Logged := by
  have hr := Transactional.run_induction (S := protocol d) (I := fun u => u.InOrder d ∧ u.Logged)
    (fun _ i _ hu hx => ⟨i.inOrder hu.1 hx,i.logged hu.1.sound hu.2 hx⟩)
    ⟨⟨g.world_sound,g.world_balanced⟩,g.world_logged⟩ is
  exact hr.2

end DukaPay
