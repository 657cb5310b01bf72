import DukaPay.CircuitBreaker.Calls
import DukaPay.Contractlib.Ballot

/-! A pause is lifted early by an override: a signer proposes it, signers approve it, and after the
timelock anyone executes it. -/
namespace DukaPay
open Contractlib List Transactional

/-- What a call that returns does to the proposal `id`, from what was stored to what is stored. -/
inductive OverrideMove (env : TimedEnv) (b : CircuitBreaker) (id : Nat) :
    BreakerCall → Option OverrideProposal → OverrideProposal → Prop
  | kept (c : BreakerCall) (p : OverrideProposal) : OverrideMove env b id c (some p) p
  | proposed (proposer : Address) (target : OverrideTarget) (hsigner : proposer ∈ b.signers)
    (hid : b.overrideCount + 1 = id) :
    OverrideMove env b id (.proposeOverride proposer target) none
      (b.newProposal env proposer target)
  | approved (signer : Address) (p : OverrideProposal) (hsigner : signer ∈ b.signers)
    (hactive : p.status = .Active) :
    OverrideMove env b id (.approveOverride signer id) (some p)
      { p with approvals := p.approvals.insert signer true }
  | executed (caller : Address) (p : OverrideProposal) (hactive : p.status = .Active) :
    OverrideMove env b id (.executeOverride caller id) (some p) { p with status := .Executed }
  | cancelled (caller : Address) (p : OverrideProposal) (hactive : p.status = .Active) :
    OverrideMove env b id (.cancelOverride caller id) (some p) { p with status := .Cancelled }

def OverrideProposal.asProposed (p : OverrideProposal) : OverrideProposal :=
  { p with approvals := ∅, status := .Active }

namespace CircuitBreaker

structure Filed (b : CircuitBreaker) : Prop where
  blank : b.Blank
  id_eq : ∀ id p, b.overrides.lookup id = some p → p.id = id
  le_count : ∀ id p, b.overrides.lookup id = some p → id ≤ b.overrideCount

section
variable {self : Address} {env : TimedEnv} {c : BreakerCall} {b b' : CircuitBreaker}

lemma Filed.fresh (h : b.Filed) : b.overrides.lookup (b.overrideCount + 1) = none := by
  cases hp : b.overrides.lookup (b.overrideCount + 1) with
  | none => rfl
  | some p => exact absurd (h.le_count _ p hp) (by omega)

lemma Filed.move (h : b.Filed) (hc : c.Effect self env b b') {id p}
    (hp : b'.overrides.lookup id = some p) : OverrideMove env b id c (b.overrides.lookup id) p := by
  cases hc with
  | pause =>
    rw [pauseTarget_eq] at hp
    rw [show b.overrides.lookup id = some p from hp]
    exact .kept _ p
  | isBlocked =>
    rw [isBlocked_eq] at hp
    rw [show b.overrides.lookup id = some p from hp]
    exact .kept _ p
  | proposeOverride prp tgt _ hs =>
    obtain ⟨rfl,rfl⟩ | ⟨-,hp⟩ := Storage.lookup_insert_eq_some.mp hp
    · rw [show b.overrides.lookup (b.newProposal env prp tgt).id = none from h.fresh]
      exact .proposed prp tgt hs rfl
    · rw [show b.overrides.lookup id = some p from hp]
      exact .kept _ p
  | approveOverride sgn pid q _ hs hq ha =>
    obtain ⟨rfl,rfl⟩ | ⟨-,hp⟩ := Storage.lookup_insert_eq_some.mp hp
    · have hi := h.id_eq pid q hq
      subst hi
      rw [hq]
      exact .approved sgn q hs ha
    · rw [hp]
      exact .kept _ p
  | executeOverride clr pid q _ hq ha =>
    rw [liftTarget_eq] at hp
    obtain ⟨rfl,rfl⟩ | ⟨-,hp⟩ := Storage.lookup_insert_eq_some.mp hp
    · have hi := h.id_eq pid q hq
      subst hi
      rw [hq]
      exact .executed clr q ha
    · rw [show b.overrides.lookup id = some p from hp]
      exact .kept _ p
  | cancelOverride clr pid q _ hq ha =>
    obtain ⟨rfl,rfl⟩ | ⟨-,hp⟩ := Storage.lookup_insert_eq_some.mp hp
    · have hi := h.id_eq pid q hq
      subst hi
      rw [hq]
      exact .cancelled clr q ha
    · rw [hp]
      exact .kept _ p
  | _ =>
    rw [show b.overrides.lookup id = some p from hp]
    exact .kept _ p

lemma Filed.count (h : b.Filed) (hc : c.Effect self env b b') : b.overrideCount ≤ b'.overrideCount ∧
    ∀ prp tgt, c = .proposeOverride prp tgt → b'.overrideCount = b.overrideCount + 1 := by
  cases hc with
  | initializeBreaker _ _ _ _ hw =>
    rw [h.blank hw]
    refine ⟨Nat.zero_le _,fun _ _ hl => ?_⟩
    cases hl
  | pause clr tgt =>
    rw [pauseTarget_eq]
    refine ⟨le_rfl,fun _ _ hl => ?_⟩
    cases tgt <;> cases hl
  | isBlocked =>
    rw [isBlocked_eq]
    refine ⟨le_rfl,fun _ _ hl => ?_⟩
    cases hl
  | executeOverride =>
    rw [liftTarget_eq]
    refine ⟨le_rfl,fun _ _ hl => ?_⟩
    cases hl
  | proposeOverride => exact ⟨Nat.le_succ _,fun _ _ _ => rfl⟩
  | _ =>
    refine ⟨le_rfl,fun _ _ hl => ?_⟩
    cases hl

lemma Filed.step (h : b.Filed) (hc : c.Effect self env b b') : b'.Filed := by
  obtain ⟨hg,hr⟩ := h.count hc
  have hf : ∀ id p, b'.overrides.lookup id = some p → p.id = id ∧ id ≤ b'.overrideCount := by
    intro id p hp
    have hm := h.move hc hp
    generalize ho : b.overrides.lookup id = old at hm
    cases hm with
    | proposed prp tgt _ hi => exact ⟨hi,(hr prp tgt rfl ▸ hi.symm).le⟩
    | kept => exact ⟨h.id_eq id p ho,(h.le_count id p ho).trans hg⟩
    | approved _ q => exact ⟨h.id_eq id q ho,(h.le_count id q ho).trans hg⟩
    | executed _ q => exact ⟨h.id_eq id q ho,(h.le_count id q ho).trans hg⟩
    | cancelled _ q => exact ⟨h.id_eq id q ho,(h.le_count id q ho).trans hg⟩
  exact ⟨h.blank.step hc,fun id p hp => (hf id p hp).1,fun id p hp => (hf id p hp).2⟩

lemma Filed.run (h : b.Filed) (cs) : ((breakerSystem self).run b cs).Filed :=
  run_induction (I := Filed) (fun _ _ _ hb hx => hb.step (BreakerCall.effect_of_ok hx)) h cs

lemma filed_empty : empty.Filed := by
  refine ⟨fun _ => rfl,fun _ _ hp => ?_,fun _ _ hp => ?_⟩ <;> cases hp

lemma lookup_isSome_of_effect (hc : c.Effect self env b b') {id}
    (hp : (b.overrides.lookup id).isSome = true) : (b'.overrides.lookup id).isSome = true := by
  have hn : ∀ p, ((b.overrides.insert p.id p).lookup id).isSome = true := by
    intro p
    by_cases hi : id = p.id
    · rw [hi,AList.lookup_insert]
      rfl
    · rwa [AList.lookup_insert_ne hi]
  cases hc with
  | pause =>
    rw [pauseTarget_eq]
    exact hp
  | isBlocked =>
    rw [isBlocked_eq]
    exact hp
  | executeOverride =>
    rw [liftTarget_eq]
    exact hn _
  | proposeOverride | approveOverride | cancelOverride => exact hn _
  | _ => exact hp

lemma Filed.asProposed_eq (h : b.Filed) (hc : c.Effect self env b b') {id p}
    (hp : b'.overrides.lookup id = some p) :
    (∃ q, b.overrides.lookup id = some q ∧ q.asProposed = p.asProposed) ∨
    ∃ prp target, c = .proposeOverride prp target ∧ prp ∈ b.signers ∧
    b.overrideCount + 1 = id ∧ p = b.newProposal env prp target := by
  have hm := h.move hc hp
  generalize ho : b.overrides.lookup id = old at hm
  cases hm with
  | proposed prp target hs hi => exact .inr ⟨prp,target,rfl,hs,hi,rfl⟩
  | _ => exact .inl ⟨_,rfl,rfl⟩

lemma Filed.settled (h : b.Filed) (hc : c.Effect self env b b') {id}
    (hs : ∃ q, b.overrides.lookup id = some q ∧ q.status ≠ .Active) :
    ∃ q, b'.overrides.lookup id = some q ∧ q.status ≠ .Active := by
  obtain ⟨q,hq,ht⟩ := hs
  obtain ⟨p,hp⟩ := Option.isSome_iff_exists.mp
    (lookup_isSome_of_effect hc (Option.isSome_iff_exists.mpr ⟨q,hq⟩))
  have hm := h.move hc hp
  rw [hq] at hm
  refine ⟨p,hp,?_⟩
  cases hm with
  | kept => exact ht
  | approved _ _ _ ha => exact absurd ha ht
  | executed _ _ ha => exact absurd ha ht
  | cancelled _ _ ha => exact absurd ha ht

end

/-! ### The calls behind a proposal -/

def overrideBox (self : Address) (id : Nat) :
    BallotBox (breakerSystem self) OverrideProposal Address where
  slot := fun b => (b.overrides.lookup id).map fun p => ⟨id,p.asProposed,p.approvals⟩
  Opens := fun b i _ p => i.call = .proposeOverride p.proposer p.target ∧ p.proposer ∈ b.signers ∧
    b.overrideCount + 1 = id ∧ p = b.newProposal i.env p.proposer p.target
  Approves := fun b i _ _ a => i.call = .approveOverride a id ∧ a ∈ b.signers
  Valid := Filed
  valid_step := fun _ _ _ hb hexec => hb.step (BreakerCall.effect_of_ok hexec)
  move := by
    intro b i b' hb hexec
    cases hp : b'.overrides.lookup id with
    | none => exact .closed _
    | some p =>
      have hmove := hb.move (BreakerCall.effect_of_ok hexec) hp
      generalize hold : b.overrides.lookup id = old at hmove
      generalize hcall : i.call = c at hmove
      cases hmove with
      | kept => exact .kept _
      | proposed proposer target hsigner hid => exact .opened _ id _ ⟨rfl,hsigner,hid,rfl⟩
      | approved signer q hsigner =>
        exact .approved ⟨id,q.asProposed,q.approvals⟩ signer ⟨rfl,hsigner⟩
      | executed | cancelled => exact .kept _

variable {self : Address} {cs : List BreakerInvocation} {id : Nat} {p : OverrideProposal}

lemma override_history (hp : ((breakerSystem self).run .empty cs).overrides.lookup id = some p) :
    ∃ s i s' rest, (breakerSystem self).Returned .empty cs s i s' rest ∧
    (i.call = .proposeOverride p.proposer p.target ∧ p.proposer ∈ s.signers ∧
    s.overrideCount + 1 = id ∧ p.asProposed = s.newProposal i.env p.proposer p.target) ∧
    ∀ a ∈ p.approvals.keys, ∃ t j t' ltr, (breakerSystem self).Returned s' rest t j t' ltr ∧
    j.call = .approveOverride a id ∧ a ∈ t.signers := by
  have hs : (overrideBox self id).slot ((breakerSystem self).run .empty cs) =
      some ⟨id,p.asProposed,p.approvals⟩ := congrArg (Option.map _) hp
  obtain ⟨s,i,s',rest,hr,ho,-,ha⟩ := BallotBox.history (B := overrideBox self id) filed_empty rfl hs
  exact ⟨s,i,s',rest,hr,ho,ha⟩

/-! ### The quorum -/

def KeepsApprovers (b : CircuitBreaker) : BreakerCall → Prop
  | .setSigners _ signers _ =>
    ∀ e ∈ b.overrides.entries, e.2.status = .Active → ∀ a ∈ e.2.approvals.keys, a ∈ signers
  | _ => True

instance (b : CircuitBreaker) : (c : BreakerCall) → Decidable (b.KeepsApprovers c)
  | .setSigners _ _ _ => inferInstanceAs (Decidable (∀ e ∈ b.overrides.entries, _ → _))
  | .initializeBreaker .. | .setAdmin .. | .setOverrideTimelock .. | .pauseAll .. |
    .pauseContract .. | .pauseFunction .. | .proposeOverride .. | .approveOverride .. |
    .executeOverride .. | .cancelOverride .. | .isBlocked .. => isTrue trivial

def Seated (b : CircuitBreaker) : Prop :=
  ∀ id p, b.overrides.lookup id = some p → p.status = .Active → ∀ a ∈ p.approvals.keys,
    a ∈ b.signers

variable {b b' : CircuitBreaker} {env : TimedEnv} {c : BreakerCall}

lemma signers_of_effect (hc : c.Effect self env b b') : b'.signers = b.signers ∨ b.admin = none ∨
    ∃ clr threshold, c = .setSigners clr b'.signers threshold := by
  cases hc with
  | initializeBreaker _ _ _ _ hw => exact .inr (.inl hw)
  | setSigners clr sgs threshold => exact .inr (.inr ⟨clr,threshold,rfl⟩)
  | pause =>
    rw [pauseTarget_eq]
    exact .inl rfl
  | isBlocked =>
    rw [isBlocked_eq]
    exact .inl rfl
  | executeOverride =>
    rw [liftTarget_eq]
    exact .inl rfl
  | _ => exact .inl rfl

lemma Seated.step (h : b.Seated) (hf : b.Filed) (hk : b.KeepsApprovers c)
    (hc : c.Effect self env b b') : b'.Seated := by
  intro id p hp hac a ha
  have hm := hf.move hc hp
  generalize ho : b.overrides.lookup id = old at hm
  obtain hs | hn | ⟨clr,thr,rfl⟩ := signers_of_effect hc
  · rw [hs]
    cases hm with
    | proposed => cases ha
    | kept => exact h id p ho hac a ha
    | approved sgn q hsi hq =>
      obtain rfl | ha := mem_keys_insert.mp ha
      · exact hsi
      · exact h id q ho hq a ha
    | executed | cancelled => cases hac
  · -- nothing was stored, and nobody could have proposed anything
    rw [hf.blank hn] at ho hm
    cases ho
    cases hm with
    | proposed _ _ hsi => cases hsi
  · cases hm with
    | kept => exact hk ⟨id,p⟩ (AList.mem_lookup_iff.mp ho) hac a ha

lemma seated_run (hk : (breakerSystem self).Along (fun b i => b.KeepsApprovers i.call) .empty cs)
    : ((breakerSystem self).run .empty cs).Seated := by
  refine (along_induction (I := fun b => b.Filed ∧ b.Seated) ?_ ⟨filed_empty,?_⟩ hk).2
  · rintro b i b' ⟨hf,hs⟩ hkp hx
    have hc := BreakerCall.effect_of_ok hx
    exact ⟨hf.step hc,hs.step hf hkp hc⟩
  · intro _ _ hp
    cases hp

lemma Filed.not_executed_again (h : b.Filed)
    (hs : ∃ q, b.overrides.lookup id = some q ∧ q.status ≠ .Active) (cs env cl b') :
    ((breakerSystem self).run b cs).executeOverride self env cl id ≠ .ok b' := by
  intro hx
  have hr := run_induction (S := breakerSystem self)
    (I := fun b => b.Filed ∧ ∃ q, b.overrides.lookup id = some q ∧ q.status ≠ .Active)
    (fun _ _ _ hb hx =>
      have hc := BreakerCall.effect_of_ok hx
      ⟨hb.1.step hc,hb.1.settled hc hb.2⟩) ⟨h,hs⟩ cs
  obtain ⟨-,q,hq,ht⟩ := hr
  obtain ⟨-,_,hp,ha,-⟩ := BreakerCall.executeOverride_eq_ok.mp hx
  rw [hq] at hp
  cases hp
  exact ht ha

/-- **What an executed override went through**: it was active, a signer proposed it, the timelock of
that time has passed, and as many distinct signers of their time as the threshold says approved it
since; they are signers now if no rotation dropped one of them. It is not executed again. -/
theorem override_quorum (self caller : Address) (env : TimedEnv) (cs : List BreakerInvocation)
    (proposalId : Nat) (b' : CircuitBreaker)
    (hexec : ((breakerSystem self).run .empty cs).executeOverride self env caller proposalId =
      .ok b') :
    let b := (breakerSystem self).run .empty cs
    ∃ p, b.overrides.lookup proposalId = some p ∧ p.status = .Active ∧
      (∃ s i s' rest, (breakerSystem self).Returned .empty cs s i s' rest ∧
        i.call = .proposeOverride p.proposer p.target ∧ p.proposer ∈ s.signers ∧
          s.overrideCount + 1 = proposalId ∧
            i.time + s.overrideTimelock.getD defaultOverrideTimelock ≤ env.timestamp ∧
              let Approved := fun a => ∃ t j t' later,
                (breakerSystem self).Returned s' rest t j t' later ∧
                  j.call = .approveOverride a proposalId ∧ a ∈ t.signers
              Quorum p.approvals.keys b.threshold Approved ∧
                ((breakerSystem self).Along (fun b i => b.KeepsApprovers i.call) .empty cs →
                  Quorum b.signers b.threshold Approved)) ∧
        ∀ cs' env' caller' b'', ((breakerSystem self).run b' cs').executeOverride self env' caller'
          proposalId ≠ .ok b'' := by
  intro b
  have hl : b.Filed := filed_empty.run cs
  obtain ⟨-,p,hp,hactive,hm,htt,ho,rfl⟩ :=
    BreakerCall.executeOverride_eq_ok.mp hexec
  obtain ⟨s,i,s',rest,he,⟨hc,hsigner,hid,ht⟩,hr⟩ :=
    override_history hp
  have hf : p.executableAfter = u64.saturatingAdd i.time
      (s.overrideTimelock.getD defaultOverrideTimelock) :=
    congrArg OverrideProposal.executableAfter ht
  refine ⟨p,hp,hactive,⟨s,i,s',rest,he,hc,hsigner,hid,?_,?_,?_⟩,?_⟩
  · -- a timelock that ends beyond the clock is never waited out, for the proposal expires before
    rw [hf] at hm
    exact NatType.add_le_of_saturatingAdd_le hm (NatType.lt_saturatingAdd.mp htt).2
  · exact quorum_of_approvals (fun _ ha => ha) ho hr
  · intro hk
    exact quorum_of_approvals (seated_run hk proposalId p hp hactive) ho hr
  · have hid' : p.id = proposalId := hl.id_eq proposalId p hp
    have hs := AList.lookup_insert (a := p.id)
      (b := { p with status := OverrideStatus.Executed }) b.overrides
    have hc : (BreakerCall.executeOverride caller proposalId).exec self env b = .ok _ := hexec
    refine Filed.not_executed_again (hl.step (BreakerCall.effect_of_ok hc))
      ⟨{ p with status := .Executed },?_,nofun⟩
    rw [liftTarget_eq,← hid']
    exact hs

def rotationRun (signers : List Address) : List BreakerInvocation :=
  [⟨.smallAt 100,.initializeBreaker ⟨4⟩ [⟨5⟩,⟨6⟩] 2 86400⟩,⟨.smallAt 100,.pauseAll ⟨5⟩⟩,
    ⟨.smallAt 100,.proposeOverride ⟨5⟩ .Global⟩,
    ⟨.smallAt 200,.approveOverride ⟨5⟩ 1⟩,
    ⟨.smallAt 200,.approveOverride ⟨6⟩ 1⟩,
    ⟨.smallAt 300,.setSigners ⟨4⟩ signers 2⟩]

theorem override_quorum_kept :
    let cs := rotationRun [⟨5⟩,⟨6⟩,⟨7⟩]
    let b := (breakerSystem ⟨9⟩).run .empty cs
    (breakerSystem ⟨9⟩).Along (fun b i => b.KeepsApprovers i.call) .empty cs ∧
      ∃ b', b.executeOverride ⟨9⟩ (.smallAt 86500) ⟨7⟩ 1 = .ok b' ∧
        ∃ voters : List Address, voters.Nodup ∧ voters ⊆ b.signers ∧ 2 ≤ voters.length := by
  have hk : (breakerSystem ⟨9⟩).Along (fun b i => b.KeepsApprovers i.call) .empty
      (rotationRun [⟨5⟩,⟨6⟩,⟨7⟩]) := by decide +kernel
  have he := eq_ok_of_not_fails
    (x := ((breakerSystem ⟨9⟩).run .empty (rotationRun [⟨5⟩,⟨6⟩,⟨7⟩])).executeOverride ⟨9⟩
      (.smallAt 86500) ⟨7⟩ 1) (by decide +kernel) .empty
  obtain ⟨_,-,-,⟨_,i,_,_,-,-,-,-,-,-,hq⟩,-⟩ :=
    override_quorum ⟨9⟩ ⟨7⟩ (.smallAt 86500) (rotationRun [⟨5⟩,⟨6⟩,⟨7⟩]) 1 _ he
  obtain ⟨voters,hn,hm,hc,-⟩ := hq hk
  exact ⟨hk,_,he,voters,hn,hm,hc⟩

/-- The override passes with the approvals of two who are no longer signers, and none of the others. -/
theorem override_quorum_rotated :
    let cs := rotationRun [⟨7⟩,⟨8⟩]
    let b := (breakerSystem ⟨9⟩).run .empty cs
    ¬ Fails (b.executeOverride ⟨9⟩ (.smallAt 86500) ⟨7⟩ 1) ∧
      b.signers = [⟨7⟩,⟨8⟩] ∧ b.threshold = 2 ∧
        ¬ Quorum b.signers b.threshold (fun a => ∃ t j t' later,
          (breakerSystem ⟨9⟩).Returned .empty cs t j t' later ∧ j.call = .approveOverride a 1) := by
  have hs : ((breakerSystem ⟨9⟩).run .empty (rotationRun [⟨7⟩,⟨8⟩])).signers =
      [⟨7⟩,⟨8⟩] := by decide +kernel
  have ht : ((breakerSystem ⟨9⟩).run .empty (rotationRun [⟨7⟩,⟨8⟩])).threshold = 2 := by
    decide +kernel
  refine ⟨by decide +kernel,hs,ht,?_⟩
  rintro ⟨vts,-,he,ho,hp⟩
  rw [ht] at ho
  rw [hs] at he
  obtain ⟨a,ha⟩ := exists_mem_of_length_pos (by omega : 0 < vts.length)
  obtain ⟨t,j,t',later,⟨past,hcs,-,-⟩,hc⟩ := hp a ha
  have hj : j ∈ rotationRun [⟨7⟩,⟨8⟩] := by
    rw [hcs]
    exact mem_append_right past mem_cons_self
  have hm := he ha
  simp only [rotationRun,mem_cons,not_mem_nil,or_false] at hj hm
  obtain rfl | rfl | rfl | rfl | rfl | rfl := hj <;> cases hc <;>
    exact absurd hm (by decide)

/-! ### Which pauses an override lifts -/
def scopeKey (scope : PauseScope) : PauseKey :=
  scope.contract.map fun contract => (contract,scope.function.getD contractWildcard)

lemma scopeKey_describeTarget (t) : scopeKey (describeTarget t) = t.key := by
  cases t <;> rfl

def lastTrip (k : PauseKey) : List BreakerEvent → Option Nat
  | [] => none
  | .Paused scope _ _ timestamp :: events =>
    if scopeKey scope = k then some timestamp else lastTrip k events
  | _ :: events => lastTrip k events

def TripsFresh (b : CircuitBreaker) (i : BreakerInvocation) : Prop :=
  ∀ target ∈ i.call.pausedTarget, ∀ e ∈ b.overrides.entries, e.2.status = .Active →
    e.2.target.key = target.key → i.time ≤ e.2.proposedAt ∨ proposalTtl e.2 ≤ i.time

instance (b : CircuitBreaker) (i : BreakerInvocation) : Decidable (b.TripsFresh i) :=
  inferInstanceAs (Decidable (∀ target ∈ i.call.pausedTarget, _))

lemma trip_of_effect (hc : c.Effect self env b b') (k) :
    (∃ tgt, c.pausedTarget = some tgt ∧ tgt.key = k ∧ lastTrip k b'.events = some env.timestamp) ∨
    lastTrip k b'.events = lastTrip k b.events ∧
    ∀ e, b'.stored k = some e → b.stored k = some e := by
  cases hc with
  | initializeBreaker =>
    refine .inr ⟨rfl,fun e he => ?_⟩
    cases k with
    | none => exact he
    | some => cases he
  | setSigners | setOverrideTimelock => exact .inr ⟨rfl,fun e he => he⟩
  | pause clr tgt =>
    have hv : lastTrip k ((b.pauseTarget tgt (pauseExpiry env)).publish
        (.Paused (describeTarget tgt) clr (pauseExpiry env) env.timestamp)).events =
        if tgt.key = k then some env.timestamp else lastTrip k b.events := by
      rw [pauseTarget_eq,← scopeKey_describeTarget]
      rfl
    by_cases hk : tgt.key = k
    · rw [if_pos hk] at hv
      exact .inl ⟨tgt,by cases tgt <;> rfl,hk,hv⟩
    rw [if_neg hk] at hv
    refine .inr ⟨hv,fun e he => ?_⟩
    rwa [stored_publish,stored_pauseTarget,if_neg (Ne.symm hk)] at he
  | executeOverride =>
    refine .inr ⟨?_,fun e he => ?_⟩
    · rw [liftTarget_eq]
      rfl
    · rw [stored_publish,stored_writeProposal,stored_publish,stored_liftTarget] at he
      split at he
      · cases he
      · exact he
  | isBlocked con fn =>
    refine .inr ⟨?_,fun e he => ?_⟩
    · rw [isBlocked_eq]
      rfl
    · obtain hs | ⟨hn,-⟩ := stored_isBlocked env.timestamp con fn b k
      · rw [← hs,he]
      · rw [hn] at he
        cases he
  | _ =>
    refine .inr ⟨rfl,fun e he => ?_⟩
    rwa [stored_publish] at he

structure Tripped (now : Nat) (b : CircuitBreaker) : Prop where
  filed : b.Filed
  trip : ∀ k e, b.stored k = some e → ∃ trippedAt, lastTrip k b.events = some trippedAt ∧
    trippedAt ≤ now
  before : ∀ id p e trippedAt, b.overrides.lookup id = some p → p.status = .Active →
    b.stored p.target.key = some e → lastTrip p.target.key b.events = some trippedAt →
      trippedAt ≤ p.proposedAt ∨ proposalTtl p ≤ now

lemma Tripped.wait {now l} (hl : now ≤ l) (h : b.Tripped now) : b.Tripped l where
  filed := h.filed
  trip := fun k e he => (h.trip k e he).imp fun _ ht => ⟨ht.1,ht.2.trans hl⟩
  before := fun id p e ta hp ha he ht =>
    (h.before id p e ta hp ha he ht).imp_right fun htt => htt.trans hl

lemma Tripped.step {i : BreakerInvocation} (h : b.Tripped i.time) (hf : b.TripsFresh i)
    (hc : i.call.Effect self i.env b b') : b'.Tripped i.time := by
  have hr : ∀ k e, b'.stored k = some e → ∃ ta, lastTrip k b'.events = some ta ∧ ta ≤ i.time := by
    intro k e he
    obtain ⟨-,-,-,hw⟩ | ⟨hs,ho⟩ := trip_of_effect hc k
    · exact ⟨i.time,hw,le_rfl⟩
    · rw [hs]
      exact h.trip k e (ho e he)
  refine ⟨h.filed.step hc,hr,?_⟩
  intro id p e ta hp hac he hl
  obtain ⟨q,hq,hm⟩ | ⟨_,tgt,-,-,-,rfl⟩ := h.filed.asProposed_eq hc hp
  · -- the proposal was there: it was active, and the entry is old or tripped in time
    have hqc : q.status = .Active := by
      by_contra hse
      obtain ⟨_,hp',ht⟩ := h.filed.settled hc ⟨q,hq,hse⟩
      rw [hp] at hp'
      cases hp'
      exact ht hac
    obtain ⟨-,hg,-,ha,hx,-,-⟩ := OverrideProposal.mk.inj hm
    rw [← hg] at he hl
    rw [proposalTtl,← ha,← hx]
    obtain ⟨tgt,hps,hk,hw⟩ | ⟨hs,ho⟩ := trip_of_effect hc q.target.key
    · rw [hl] at hw
      cases hw
      exact hf tgt hps ⟨id,q⟩ (AList.mem_lookup_iff.mp hq) hqc hk.symm
    · exact h.before id q e ta hq hqc (ho e he) (hs ▸ hl)
  · -- the proposal is made now
    obtain ⟨_,hl',hle⟩ := hr _ e he
    rw [hl] at hl'
    cases hl'
    exact .inl hle

lemma tripped_run {now} (hf : (breakerSystem self).Along TripsFresh .empty cs)
    (ht : (cs.map BreakerInvocation.time ++ [now]).Pairwise (· ≤ ·)) :
    ((breakerSystem self).run .empty cs).Tripped now := by
  refine timed_induction (I := Tripped) (fun _ _ _ hl h => h.wait hl) ?_ ?_ hf ht
  · intro b i b' h hf hx
    exact h.step hf (BreakerCall.effect_of_ok hx)
  · refine ⟨filed_empty,fun k e he => ?_,fun id p e trippedAt hp => ?_⟩
    · cases k <;> cases he
    · cases hp

/-- **Overrides do not lift later pauses** if no pause is tripped that an earlier proposal can still
lift: every entry that an executed override removes was tripped for the last time before the
proposal. -/
theorem override_lifts_earlier (self caller : Address) (env : TimedEnv)
    (cs : List BreakerInvocation) (proposalId : Nat) (b' : CircuitBreaker)
    (htime : (cs.map BreakerInvocation.time ++ [env.timestamp]).Pairwise (· ≤ ·))
    (hfresh : (breakerSystem self).Along TripsFresh .empty cs)
    (hexec : ((breakerSystem self).run .empty cs).executeOverride self env caller proposalId =
      .ok b') :
    let b := (breakerSystem self).run .empty cs
    ∃ s i s' rest, (breakerSystem self).Returned .empty cs s i s' rest ∧
      (∃ proposer target, i.call = .proposeOverride proposer target) ∧
        s.overrideCount + 1 = proposalId ∧
          ∀ k e, b.stored k = some e → b'.stored k = none →
            ∃ trippedAt, lastTrip k b.events = some trippedAt ∧ trippedAt ≤ i.time := by
  intro b
  obtain ⟨-,p,hp,hactive,-,htt,-,rfl⟩ := BreakerCall.executeOverride_eq_ok.mp hexec
  obtain ⟨s,i,s',rest,hr,⟨hc,-,hid,ht⟩,-⟩ := override_history hp
  have hat : p.proposedAt = i.time := congrArg OverrideProposal.proposedAt ht
  refine ⟨s,i,s',rest,hr,⟨p.proposer,p.target,hc⟩,hid,fun k e he hn => ?_⟩
  have hd := tripped_run hfresh htime
  obtain ⟨trippedAt,hl,-⟩ := hd.trip k e he
  refine ⟨trippedAt,hl,?_⟩
  rw [stored_publish,stored_writeProposal,stored_publish,stored_liftTarget] at hn
  split at hn
  · next hk =>
    subst hk
    rw [← hat]
    exact (hd.before proposalId p e trippedAt hp hactive he hl).resolve_right htt.not_ge
  · exact absurd (he.symm.trans hn) nofun

theorem override_lifts_earlier_rotation :
    let cs := rotationRun [⟨5⟩,⟨6⟩]
    let b := (breakerSystem ⟨9⟩).run .empty cs
    (cs.map BreakerInvocation.time ++ [86500]).Pairwise (· ≤ ·) ∧
      (breakerSystem ⟨9⟩).Along TripsFresh .empty cs ∧
        ∃ b', b.executeOverride ⟨9⟩ (.smallAt 86500) ⟨5⟩ 1 = .ok b' ∧
          ∃ i ∈ cs, ∃ trippedAt, lastTrip none b.events = some trippedAt ∧ trippedAt ≤ i.time := by
  have he := eq_ok_of_not_fails
    (x := ((breakerSystem ⟨9⟩).run .empty (rotationRun [⟨5⟩,⟨6⟩])).executeOverride ⟨9⟩
      (.smallAt 86500) ⟨5⟩ 1) (by decide +kernel) .empty
  refine ⟨by decide,by decide +kernel,_,he,?_⟩
  obtain ⟨_,i,_,_,⟨past,hcs,-,-⟩,-,-,hl⟩ :=
    override_lifts_earlier ⟨9⟩ ⟨5⟩ (.smallAt 86500) (rotationRun [⟨5⟩,⟨6⟩]) 1 _ (by decide)
      (by decide +kernel) he
  refine ⟨i,?_,hl none 259300 (by decide +kernel) (by decide +kernel)⟩
  rw [hcs]
  exact mem_append_right past mem_cons_self

def lateTripRun : List BreakerInvocation :=
  [⟨.smallAt 100,.initializeBreaker ⟨4⟩ [⟨5⟩,⟨6⟩] 2 86400⟩,
    ⟨.smallAt 100,.proposeOverride ⟨5⟩ .Global⟩,
    ⟨.smallAt 200,.approveOverride ⟨5⟩ 1⟩,
    ⟨.smallAt 200,.approveOverride ⟨6⟩ 1⟩,
    ⟨.smallAt 86400,.pauseAll ⟨5⟩⟩]

/-- The override lifts the pause that was tripped after it had been proposed. -/
theorem override_lifts_earlier_late :
    let b := (breakerSystem ⟨9⟩).run .empty lateTripRun
    (lateTripRun.map BreakerInvocation.time ++ [86500]).Pairwise (· ≤ ·) ∧
      (b.overrides.lookup 1).map OverrideProposal.proposedAt = some 100 ∧
        lastTrip none b.events = some 86400 ∧ b.stored none = some 345600 ∧
          (b.executeOverride ⟨9⟩ (.smallAt 86500) ⟨5⟩ 1).toOption.map (fun b' => b'.stored none) =
            some none := by
  refine ⟨by decide,by decide +kernel,by decide +kernel,by decide +kernel,by decide +kernel⟩

end CircuitBreaker

end DukaPay
