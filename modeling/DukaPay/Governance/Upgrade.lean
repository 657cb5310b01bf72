import DukaPay.Governance.Calls

/-! A council of signers queues the upgrade of a contract, approves it, and anyone executes it after
48 hours. -/
namespace DukaPay
open Contractlib

def PendingUpgrade.asQueued (p : PendingUpgrade) : PendingUpgrade := { p with approvals := ∅ }

namespace Governance

def getUpgradeSigners (g : Governance) : List Address := g.upgradeSigners.getD []

lemma isUpgradeSigner_iff {who} {g : Governance} :
    g.isUpgradeSigner who = true ↔ who ∈ g.getUpgradeSigners := by
  unfold isUpgradeSigner getUpgradeSigners
  cases g.upgradeSigners <;> simp

structure QueuesUpgrade (w : Governed) (i : GovernanceInvocation) (p : PendingUpgrade) : Prop where
  call : i.call = .queueUpgrade p.proposedBy p.target p.newWasmHash
  auth : i.env.Authorized p.proposedBy
  may : w.governance.MayManage p.proposedBy
  terms : p = w.governance.newUpgrade i.env.toTimedEnv p.proposedBy p.target p.newWasmHash

lemma QueuesUpgrade.times {w i p} (h : QueuesUpgrade w i p) : p.proposedAt = i.time ∧
    p.executableAfter = u64.saturatingAdd i.time upgradeTimelockSeconds := by
  rw [h.terms]
  exact ⟨rfl,rfl⟩

def upgradeBox (self managerAddress : Address) :
    BallotBox (governanceSystem self managerAddress) PendingUpgrade Address where
  slot := fun w => w.governance.pendingUpgrade.map fun p => ⟨p.id,p.asQueued,p.approvals⟩
  Opens := fun w i _ p => QueuesUpgrade w i p
  Approves := fun w i _ _ a => i.call = .approveUpgrade a ∧ i.env.Authorized a ∧
    a ∈ w.governance.getUpgradeSigners
  Valid := fun _ => True
  valid_step := fun _ _ _ _ _ => trivial
  move := by
    intro w i w' _ hexec
    have hc := GovernanceCall.effect_of_ok hexec
    generalize hcall : i.call = c at hc
    cases hc with
    | cancelAdminTransfer | emergencyCancelProposal =>
      unfold cancelTransfer
      split <;> exact .kept _
    | queueUpgrade proposer target newWasmHash hauth hmay =>
      exact .opened _ _ _ ⟨hcall,hauth,hmay,rfl⟩
    | approveUpgrade signer p _ hauth hsigner hp =>
      rw [hp]
      exact .approved ⟨p.id,p.asQueued,p.approvals⟩ signer
        ⟨rfl,hauth,isUpgradeSigner_iff.mp hsigner⟩
    | executeUpgrade | cancelUpgrade => exact .closed _
    | _ => exact .kept _

variable {self managerAddress : Address} {env : GovernanceEnv} {w w' : Governed}
  {c : GovernanceCall}

lemma upgrade_of_effect (hc : c.Effect self managerAddress env w w') :
    (w'.governance.pendingUpgrade = none ∨
    w'.governance.pendingUpgrade = w.governance.pendingUpgrade ∧
    w'.governance.upgradeSigners = w.governance.upgradeSigners ∨
    (∃ p, w'.governance.pendingUpgrade = some p ∧ p.approvals = ∅ ∧
    p.id = w.governance.upgradeCount + 1 ∧
    w'.governance.upgradeCount = w.governance.upgradeCount + 1) ∨
    ∃ p sgn, w.governance.pendingUpgrade = some p ∧
    w'.governance.pendingUpgrade = some { p with approvals := p.approvals.insert sgn true } ∧
            w'.governance.upgradeSigners = w.governance.upgradeSigners ∧
              sgn ∈ w.governance.getUpgradeSigners) ∧
      w.governance.upgradeCount ≤ w'.governance.upgradeCount := by
  cases hc with
  | cancelAdminTransfer | emergencyCancelProposal =>
    unfold cancelTransfer
    split <;> exact ⟨.inr (.inl ⟨rfl,rfl⟩),le_rfl⟩
  | configureUpgradeSigners _ _ _ _ _ hf => exact ⟨.inl hf,le_rfl⟩
  | queueUpgrade => exact ⟨.inr (.inr (.inl ⟨_,rfl,rfl,rfl,rfl⟩)),Nat.le_succ _⟩
  | approveUpgrade sgn p _ _ hs hp =>
    exact ⟨.inr (.inr (.inr ⟨p,sgn,hp,rfl,rfl,isUpgradeSigner_iff.mp hs⟩)),le_rfl⟩
  | executeUpgrade | cancelUpgrade => exact ⟨.inl rfl,le_rfl⟩
  | _ => exact ⟨.inr (.inl ⟨rfl,rfl⟩),le_rfl⟩

structure Council (g : Governance) : Prop where
  signers : ∀ p, g.pendingUpgrade = some p → ∀ a ∈ p.approvals.keys, a ∈ g.getUpgradeSigners
  count : ∀ p, g.pendingUpgrade = some p → p.id ≤ g.upgradeCount

lemma Council.step (h : w.governance.Council) (hc : c.Effect self managerAddress env w w') :
    w'.governance.Council := by
  obtain ⟨hn | ⟨hs,hg⟩ | ⟨p,hp,he,hd,hcn⟩ | ⟨p,_,hp,hp',hg,hsi⟩,hl⟩ := upgrade_of_effect hc
  · refine ⟨fun q hq => ?_,fun q hq => ?_⟩ <;> exact absurd (hn.symm.trans hq) nofun
  · refine ⟨fun q hq => ?_,fun q hq => ?_⟩
    · rw [getUpgradeSigners,hg]
      exact h.signers q (hs ▸ hq)
    · exact (h.count q (hs ▸ hq)).trans hl
  · refine ⟨fun q hq a ha => ?_,fun q hq => ?_⟩
    · cases hp.symm.trans hq
      rw [he] at ha
      cases ha
    · cases hp.symm.trans hq
      rw [hd,hcn]
  · refine ⟨fun q hq a ha => ?_,fun q hq => ?_⟩
    · cases hp'.symm.trans hq
      rw [getUpgradeSigners,hg]
      obtain rfl | ha := mem_keys_insert.mp ha
      · exact hsi
      · exact h.signers p hp a ha
    · cases hp'.symm.trans hq
      exact (h.count p hp).trans hl

lemma council_run (self managerAddress m cs) :
    ((governanceSystem self managerAddress).run ⟨.empty,m⟩ cs).governance.Council := by
  refine Transactional.run_induction (I := fun w : Governed => w.governance.Council)
    (fun _ _ _ hw hx => hw.step (GovernanceCall.effect_of_ok hx)) ⟨?_,?_⟩ cs
  · intro _ hp
    cases hp
  · intro _ hp
    cases hp

structure Spent (id : Nat) (g : Governance) : Prop where
  count : id ≤ g.upgradeCount
  gone : ∀ p, g.pendingUpgrade = some p → p.id ≠ id

lemma Spent.step {id} (h : w.governance.Spent id)
    (hc : c.Effect self managerAddress env w w') : w'.governance.Spent id := by
  obtain ⟨hm,hl⟩ := upgrade_of_effect hc
  refine ⟨h.count.trans hl,fun q hq => ?_⟩
  obtain hn | ⟨hs,-⟩ | ⟨p,hp,-,hd,-⟩ | ⟨p,sgn,hp,hp',-⟩ := hm
  · exact absurd (hn.symm.trans hq) nofun
  · exact h.gone q (hs ▸ hq)
  · cases hp.symm.trans hq
    have hcn := h.count
    omega
  · cases hp'.symm.trans hq
    exact h.gone p hp

lemma Spent.run {id} (h : w.governance.Spent id) (cs) :
    ((governanceSystem self managerAddress).run w cs).governance.Spent id :=
  Transactional.run_induction (I := fun w : Governed => w.governance.Spent id)
    (fun _ _ _ hw hx => hw.step (GovernanceCall.effect_of_ok hx)) h cs

end Governance

open Governance

/-- **What an executed upgrade went through**: the contract and the code were queued at least 48
hours and less than 14 days ago and ever since, upgrades are not paused, and as many distinct
members of the present council as the threshold says approved in that time. It is not executed
again. -/
theorem upgrade_timelock_safety (self managerAddress caller : Address) (env : GovernanceEnv)
    (manager : LoanManager) (cs : List GovernanceInvocation) (w' : Governed)
    (hexec : (governanceSystem self managerAddress).exec ⟨env,.executeUpgrade caller⟩
      ((governanceSystem self managerAddress).run ⟨.empty,manager⟩ cs) = .ok w') :
    let S := governanceSystem self managerAddress
    let w := S.run ⟨.empty,manager⟩ cs
    ∃ p threshold, w.governance.pendingUpgrade = some p ∧
      w'.governance.events = .UpgradeExecuted p.id p.target p.newWasmHash caller env.timestamp ::
        w.governance.events ∧
      w.governance.isUpgradePaused = false ∧ w.governance.upgradeThreshold = some threshold ∧
        (∃ s j s' rest, S.Returned ⟨.empty,manager⟩ cs s j s' rest ∧
          QueuesUpgrade s j p.asQueued ∧
            j.time + 172800 ≤ env.timestamp ∧ env.timestamp < j.time + 1209600 ∧
              S.Throughout (fun v => ∃ q, v.governance.pendingUpgrade = some q ∧ q.id = p.id)
                s' rest ∧
                Quorum w.governance.getUpgradeSigners threshold (fun a => ∃ u d u' later,
                  S.Returned s' rest u d u' later ∧ d.call = .approveUpgrade a ∧
                    d.env.Authorized a)) ∧
          ∀ cs' env' caller' w'',
            S.exec ⟨env',.executeUpgrade caller'⟩ (S.run w' cs') = .ok w'' →
              ∀ q, (S.run w' cs').governance.pendingUpgrade = some q → q.id ≠ p.id := by
  intro S w
  have hn : w.governance.Council := council_run self managerAddress manager cs
  have hc : (GovernanceCall.executeUpgrade caller).Effect self managerAddress env w w' :=
    GovernanceCall.effect_of_ok hexec
  cases hc with
  | executeUpgrade _ p threshold _ hs hp hm htt hth _ ht =>
    have hl : (upgradeBox self managerAddress).slot w = some ⟨p.id,p.asQueued,p.approvals⟩ :=
      congrArg (Option.map _) hp
    obtain ⟨s,j,s',rest,hd,he,hh,hr⟩ :=
      BallotBox.history (B := upgradeBox self managerAddress) trivial rfl hl
    obtain ⟨hat,hf⟩ : p.proposedAt = j.time ∧
        p.executableAfter = u64.saturatingAdd j.time upgradeTimelockSeconds := he.times
    rw [upgradeExpiry,hat,NatType.lt_saturatingAdd] at htt
    rw [hf] at hm
    have hw := NatType.add_le_of_saturatingAdd_le hm htt.2
    refine ⟨p,threshold,hp,rfl,hs,hth,⟨s,j,s',rest,hd,he,
      hw,htt.1,hh.imp ?_,quorum_of_approvals (hn.signers p hp) ht ?_⟩,?_⟩
    · rintro v ⟨b,hb,hid,-⟩
      obtain ⟨q,hq,rfl⟩ := Option.map_eq_some_iff.mp hb
      exact ⟨q,hq,hid⟩
    · intro a ha
      obtain ⟨u,d,u',later,hreturned',ho,hu,-⟩ := hr a ha
      exact ⟨u,d,u',later,hreturned',ho,hu⟩
    · intro cs' _ _ _ _
      refine (Spent.run ?_ cs').gone
      refine ⟨hn.count p hp,fun _ hq => ?_⟩
      cases hq

def GovernanceInvocation.upgrading : List GovernanceInvocation :=
  [⟨.smallAt 100,.initializeGovernance ⟨4⟩ ⟨2⟩⟩,
    ⟨.smallAt 100,.configureUpgradeSigners [⟨5⟩,⟨6⟩,⟨7⟩] 2⟩,
    ⟨.smallAt 200,.queueUpgrade ⟨5⟩ ⟨3⟩ 11⟩,
    ⟨.smallAt 300,.approveUpgrade ⟨6⟩⟩,
    ⟨.smallAt 300,.approveUpgrade ⟨7⟩⟩]

theorem upgrade_timelock_safety_upgrading :
    let S := governanceSystem ⟨8⟩ ⟨2⟩
    let w := S.run ⟨.empty,.empty⟩ GovernanceInvocation.upgrading
    ∃ w', S.exec ⟨.smallAt 173000,.executeUpgrade ⟨6⟩⟩ w = .ok w' ∧
      ∃ p threshold, w.governance.pendingUpgrade = some p ∧
        w.governance.upgradeThreshold = some threshold ∧
          ∃ voters : List Address, voters.Nodup ∧ voters ⊆ w.governance.getUpgradeSigners ∧
            threshold ≤ voters.length := by
  have he := eq_ok_of_not_fails
    (x := (governanceSystem ⟨8⟩ ⟨2⟩).exec ⟨.smallAt 173000,.executeUpgrade ⟨6⟩⟩
      ((governanceSystem ⟨8⟩ ⟨2⟩).run ⟨.empty,.empty⟩ GovernanceInvocation.upgrading))
    (by decide +kernel) ⟨.empty,.empty⟩
  obtain ⟨p,threshold,hp,-,-,ht,⟨_,_,_,_,-,-,-,-,-,voters,hn,hm,
    hc,-⟩,-⟩ := upgrade_timelock_safety ⟨8⟩ ⟨2⟩ ⟨6⟩ (.smallAt 173000) .empty
      GovernanceInvocation.upgrading _ he
  exact ⟨_,he,p,threshold,hp,ht,voters,hn,hm,hc⟩

end DukaPay
