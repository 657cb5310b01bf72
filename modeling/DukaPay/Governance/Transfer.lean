import DukaPay.Governance.Calls

/-! One slot of the governance contract holds the proposed transfer, from proposal to proposal. -/
namespace DukaPay
open Contractlib

def PendingTransfer.asProposed (p : PendingTransfer) : PendingTransfer := { p with approvals := ∅ }

namespace Governance

def transferBallot (g : Governance) : Option (Ballot PendingTransfer Address) :=
  (g.pending.filter fun p => decide (p.status = .Active)).map fun p =>
    ⟨p.id,p.asProposed,p.approvals⟩

variable {g : Governance} {p : PendingTransfer}

lemma transferBallot_active (hp : g.pending = some p) (ha : p.status = .Active) :
    g.transferBallot = some ⟨p.id,p.asProposed,p.approvals⟩ := by
  simp [transferBallot,hp,ha]

lemma transferBallot_cancelled (hp : g.pending = some p) (hs : p.status = .Cancelled) :
    g.transferBallot = none := by
  simp [transferBallot,hp,hs]

lemma exists_of_transferBallot {b} (h : g.transferBallot = some b) :
    ∃ p, g.pending = some p ∧ p.status = .Active ∧ b = ⟨p.id,p.asProposed,p.approvals⟩ := by
  simp only [transferBallot,Option.map_eq_some_iff,Option.filter_eq_some_iff,decide_eq_true_eq] at h
  obtain ⟨p,⟨hp,ha⟩,rfl⟩ := h
  exact ⟨p,hp,ha,rfl⟩

lemma transferBallot_cancelTransfer (env ev)
    (hp : g.pending = some p) : (g.cancelTransfer env p ev).transferBallot = none := by
  unfold cancelTransfer
  split
  · next hs => exact transferBallot_cancelled hp hs
  · exact transferBallot_cancelled rfl rfl

def ProposesTransfer (w : Governed) (i : GovernanceInvocation) (p : PendingTransfer) : Prop :=
  ∃ admin delaySeconds, w.governance.admin = some admin ∧ i.env.Authorized admin ∧
    i.call = .proposeAdminTransfer p.proposedAdmin p.signers p.threshold delaySeconds ∧
      minTimelockSeconds ≤ delaySeconds ∧
        p = w.governance.newTransfer i.env.toTimedEnv p.proposedAdmin p.signers p.threshold
          delaySeconds

def transferBox (self managerAddress : Address) :
    BallotBox (governanceSystem self managerAddress) PendingTransfer Address where
  slot := fun w => w.governance.transferBallot
  Opens := fun w i _ p => ProposesTransfer w i p
  Approves := fun _ i _ p a => i.call = .approveTransfer a ∧ i.env.Authorized a ∧ a ∈ p.signers
  Valid := fun _ => True
  valid_step := fun _ _ _ _ _ => trivial
  move := by
    intro w i w' _ hexec
    have hc := GovernanceCall.effect_of_ok hexec
    generalize hcall : i.call = c at hc
    cases hc with
    | proposeAdminTransfer proposedAdmin signers threshold delaySeconds admin hadmin hauth _ _ _ _ _
        _ _ hdelay =>
      exact .opened _ _ _ ⟨admin,delaySeconds,hadmin,hauth,hcall,hdelay,rfl⟩
    | approveTransfer signer p hauth hp hactive hsigner =>
      have hold := transferBallot_active hp hactive
      rw [hold]
      have hnew := transferBallot_active (g := { w.governance with
        pending := some { p with approvals := p.approvals.insert signer true } }) rfl hactive
      exact hnew ▸ .approved ⟨p.id,p.asProposed,p.approvals⟩ signer ⟨rfl,hauth,hsigner⟩
    | finalizeAdminTransfer | expireProposal => exact .closed _
    | cancelAdminTransfer p _ _ _ hp =>
      rw [transferBallot_cancelTransfer _ _ hp]
      exact .closed _
    | emergencyCancelProposal _ p _ _ _ hp =>
      rw [transferBallot_cancelTransfer _ _ hp]
      exact .closed _
    | _ => exact .kept _

lemma admin_of_effect {self m env w w'} {c : GovernanceCall} (hc : c.Effect self m env w w')
    (hd : w.governance.admin.isSome = true) : w'.governance.admin = w.governance.admin ∨
    ∃ clr p, c = .finalizeAdminTransfer clr ∧ w.governance.pending = some p ∧
    p.status = .Active ∧ p.executableAfter ≤ env.timestamp ∧
    env.timestamp < u64.saturatingAdd p.proposedAt proposalTtlSeconds ∧
    p.threshold ≤ p.approvals.entries.length ∧ w'.governance.admin = some p.proposedAdmin := by
  cases hc with
  | initializeGovernance _ _ hw =>
    rw [hw] at hd
    cases hd
  | finalizeAdminTransfer clr p _ _ _ hp ha _ hl ht hn =>
    exact .inr ⟨clr,p,rfl,hp,ha,hl,ht,hn,rfl⟩
  | cancelAdminTransfer | emergencyCancelProposal =>
    unfold cancelTransfer
    split <;> exact .inl rfl
  | _ => exact .inl rfl

end Governance

open Governance

structure Governed.BoundTo (managerAddress : Address) (w : Governed) : Prop where
  admin : w.governance.admin.isSome = true
  target : w.governance.target = some managerAddress

lemma Governed.BoundTo.step {self managerAddress env}
    {w w' : Governed} {c : GovernanceCall} (h : w.BoundTo managerAddress)
    (hc : c.Effect self managerAddress env w w') : w'.BoundTo managerAddress := by
  have ha : w'.governance.admin.isSome = true := by
    obtain hs | ⟨_,_,_,_,_,_,_,_,hw⟩ := admin_of_effect hc h.admin
    · exact hs ▸ h.admin
    · rw [hw]
      rfl
  refine ⟨ha,?_⟩
  cases hc with
  | initializeGovernance _ _ hw => exact absurd (hw ▸ h.admin) nofun
  | cancelAdminTransfer | emergencyCancelProposal =>
    unfold cancelTransfer
    split <;> exact h.target
  | _ => exact h.target

def Governed.SameAdmin (w : Governed) : Prop := w.manager.admin = w.governance.admin

lemma Governed.SameAdmin.step {self m env} {w w' : Governed} {c : GovernanceCall} (h : w.SameAdmin)
    (hb : w.BoundTo m) (hc : c.Effect self m env w w') : w'.SameAdmin := by
  cases hc with
  | initializeGovernance _ _ hw => exact absurd (hw ▸ hb.admin) nofun
  | finalizeAdminTransfer clr p tgt manager _ _ _ ht _ _ _ hm =>
    -- the target is the loan manager, which stores the new admin before the contract does
    rw [hb.target] at ht
    cases ht
    rw [invokeSetAdmin,if_pos rfl] at hm
    simp only [LoanManager.setAdmin,eq_ok] at hm
    obtain ⟨_,-,_,-,-,rfl⟩ := hm
    rfl
  | cancelAdminTransfer | emergencyCancelProposal =>
    unfold cancelTransfer
    split <;> exact h
  | _ => exact h

/-- **Transfers of the role of the admin**: the stored admin changes only when a transfer is
finalized that the admin of its time proposed at least 24 hours and less than 7 days ago, whose own
delay has passed, which has been active since, and which as many of its own signers approved as its
threshold says. A loan manager that starts with the same admin always has the same. -/
theorem admin_transfer_safety (self managerAddress admin : Address) (g₀ : Governance)
    (manager : LoanManager)
    (hinit : Governance.empty.initializeGovernance admin managerAddress = .ok g₀)
    (cs : List GovernanceInvocation) :
    let S := governanceSystem self managerAddress
    let w := S.run ⟨g₀,manager⟩ cs
    (∀ i w', S.exec i w = .ok w' → w'.governance.admin ≠ w.governance.admin →
      ∃ caller p, i.call = .finalizeAdminTransfer caller ∧ w.governance.pending = some p ∧
        w'.governance.admin = some p.proposedAdmin ∧ p.executableAfter ≤ i.time ∧
          ∃ s j s' rest, S.Returned ⟨g₀,manager⟩ cs s j s' rest ∧
            ProposesTransfer s j p.asProposed ∧
              j.time + 86400 ≤ i.time ∧ i.time < j.time + 604800 ∧
                S.Throughout (fun v => ∃ q, v.governance.pending = some q ∧ q.id = p.id ∧
                  q.status = .Active) s' rest ∧
                  Quorum p.signers p.threshold (fun a => ∃ u d u' later,
                    S.Returned s' rest u d u' later ∧ d.call = .approveTransfer a ∧
                      d.env.Authorized a)) ∧
      (manager.admin = some admin → w.manager.admin = w.governance.admin) := by
  intro S w
  simp only [initializeGovernance,eq_ok] at hinit
  obtain ⟨-,rfl⟩ := hinit
  have hn : w.BoundTo managerAddress :=
    Transactional.run_induction (S := S) (I := Governed.BoundTo managerAddress)
      (fun _ _ _ hw he => hw.step (GovernanceCall.effect_of_ok he)) ⟨rfl,rfl⟩ cs
  refine ⟨fun i w' he hh => ?_,fun hsm => ?_⟩
  · obtain hsm | ⟨caller,p,hl,hp,ht,hk,htt,hcn,hnw⟩ :=
      admin_of_effect (GovernanceCall.effect_of_ok he) hn.admin
    · exact absurd hsm hh
    obtain ⟨s,j,s',rest,hrt,hs,hhl,hr⟩ :=
      BallotBox.history (B := transferBox self managerAddress) trivial rfl
        (transferBallot_active hp ht)
    refine ⟨caller,p,hl,hp,hnw,hk,s,j,s',rest,hrt,hs,?_⟩
    obtain ⟨_,delaySeconds,-,-,-,hd,htr⟩ := hs
    have hf : p.executableAfter = u64.saturatingAdd j.time delaySeconds :=
      congrArg PendingTransfer.executableAfter htr
    have hat : p.proposedAt = j.time := congrArg PendingTransfer.proposedAt htr
    rw [hat,NatType.lt_saturatingAdd] at htt
    rw [hf] at hk
    refine ⟨?_,htt.1,hhl.imp ?_,quorum_of_approvals ?_ hcn ?_⟩
    · have hwt := NatType.add_le_of_saturatingAdd_le hk htt.2
      exact (Nat.add_le_add_left hd j.time).trans hwt
    · rintro v ⟨b,hb,hid,-⟩
      obtain ⟨q,hq,hst,rfl⟩ := exists_of_transferBallot hb
      exact ⟨q,hq,hid,hst⟩
    · intro a ha
      obtain ⟨_,_,_,_,-,-,-,hm⟩ := hr a ha
      exact hm
    · intro a ha
      obtain ⟨u,d,u',later,hreturned',ho,hu,-⟩ := hr a ha
      exact ⟨u,d,u',later,hreturned',ho,hu⟩
  · refine (Transactional.run_induction (S := S)
      (I := fun w => w.BoundTo managerAddress ∧ w.SameAdmin) ?_ ⟨⟨rfl,rfl⟩,?_⟩ cs).2
    · rintro w i w' ⟨hn,hsm⟩ he
      have hc := GovernanceCall.effect_of_ok he
      exact ⟨hn.step hc,hsm.step hn hc⟩
    · exact hsm

def GovernanceInvocation.handover : List GovernanceInvocation :=
  [⟨.smallAt 100,.proposeAdminTransfer ⟨5⟩ [⟨6⟩,⟨7⟩] 2 86400⟩,⟨.smallAt 200,.approveTransfer ⟨6⟩⟩,
    ⟨.smallAt 300,.approveTransfer ⟨7⟩⟩]

theorem admin_transfer_safety_handover :
    let S := governanceSystem ⟨8⟩ ⟨2⟩
    let g₀ : Governance := { Governance.empty with admin := some ⟨4⟩, target := some ⟨2⟩ }
    let manager := { LoanManager.empty with admin := some ⟨4⟩, governanceContract := some ⟨8⟩ }
    let w := S.run ⟨g₀,manager⟩ GovernanceInvocation.handover
    Governance.empty.initializeGovernance ⟨4⟩ ⟨2⟩ = .ok g₀ ∧
      w.manager.admin = w.governance.admin ∧
        ∃ w', S.exec ⟨.smallAt 86500,.finalizeAdminTransfer ⟨6⟩⟩ w = .ok w' ∧
          ∃ p, w.governance.pending = some p ∧ w'.governance.admin = some p.proposedAdmin ∧
            ∃ voters : List Address, voters.Nodup ∧ voters ⊆ p.signers ∧
              p.threshold ≤ voters.length := by
  intro S g₀ manager w
  obtain ⟨hc,hs⟩ :=
    admin_transfer_safety ⟨8⟩ ⟨2⟩ ⟨4⟩ g₀ manager rfl GovernanceInvocation.handover
  have he := eq_ok_of_not_fails
    (x := S.exec ⟨.smallAt 86500,.finalizeAdminTransfer ⟨6⟩⟩ w) (by decide +kernel) w
  refine ⟨rfl,hs rfl,_,he,?_⟩
  obtain ⟨_,p,-,hp,hn,-,_,_,_,_,-,-,-,-,-,voters,hd,hm,ho,-⟩ :=
    hc _ _ he (by decide +kernel)
  exact ⟨p,hp,hn,voters,hd,hm,ho⟩

end DukaPay
