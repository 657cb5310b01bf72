import DukaPay.Governance.Transfer
import DukaPay.Governance.Upgrade

/-! A signer who approves issues a transaction while something is pending, and the transaction is
delivered later, after whatever the others have sent meanwhile. -/
namespace DukaPay
open Contractlib Governance List Transactional

inductive Decision
  | transfer
  | upgrade
  deriving DecidableEq

namespace GovernanceCall

def approval : GovernanceCall → Option (Decision × Address)
  | .approveTransfer signer => some (.transfer,signer)
  | .approveUpgrade signer => some (.upgrade,signer)
  | _ => none

def opens : GovernanceCall → Option Decision
  | .proposeAdminTransfer .. => some .transfer
  | .queueUpgrade .. => some .upgrade
  | _ => none

def approve (decision : Decision) (signer : Address) : GovernanceCall :=
  match decision with
  | .transfer => .approveTransfer signer
  | .upgrade => .approveUpgrade signer

lemma approval_approve (decision sg) : (approve decision sg).approval = some (decision,sg) := by
  cases decision <;> rfl

end GovernanceCall

def Governed.poll (w : Governed) : Decision → Option (Nat × List Address)
  | .transfer => w.governance.transferBallot.map fun b => (b.id,b.approvals.keys)
  | .upgrade => w.governance.pendingUpgrade.map fun p => (p.id,p.approvals.keys)

inductive PollMove (c : GovernanceCall) (d : Decision) :
    Option (Nat × List Address) → Option (Nat × List Address) → Prop
  | kept (poll : Option (Nat × List Address)) : PollMove c d poll poll
  | closed (poll : Option (Nat × List Address)) : PollMove c d poll none
  | opened (poll : Option (Nat × List Address)) (id : Nat) (h : c.opens = some d) :
    PollMove c d poll (some (id, []))
  | approved (id : Nat) (a : Address) (voters voters' : List Address)
    (h : c.approval = some (d, a)) (hvoters : ∀ x ∈ voters', x = a ∨ x ∈ voters) :
    PollMove c d (some (id, voters)) (some (id, voters'))

section
variable {self mgr : Address} {i : GovernanceInvocation} {w w' : Governed}

lemma pollMove_of_ballotMove {T : Type*} {c : GovernanceCall} {d}
    {Opens : Nat → T → Prop} {Approves : Nat → T → Address → Prop}
    {slot slot'} (h : BallotMove Opens Approves slot slot')
    (ho : ∀ id terms, Opens id terms → c.opens = some d)
    (ha : ∀ id terms a, Approves id terms a → c.approval = some (d,a)) :
    PollMove c d (slot.map fun b => (b.id,b.approvals.keys))
    (slot'.map fun b => (b.id,b.approvals.keys)) := by
  cases h with
  | kept => exact .kept _
  | closed => exact .closed _
  | opened _ id terms h => exact .opened _ id (ho id terms h)
  | approved b a h => exact .approved b.id a _ _ (ha _ _ a h) fun x hx => mem_keys_insert.mp hx

lemma poll_move (hx : (governanceSystem self mgr).exec i w = .ok w')
    (d) : PollMove i.call d (w.poll d) (w'.poll d) := by
  cases d with
  | transfer =>
    refine pollMove_of_ballotMove ((transferBox self mgr).move w i w' trivial hx) ?_ ?_
    · rintro _ _ ⟨_,_,-,-,hc,-⟩
      rw [hc]
      rfl
    · rintro _ _ a ⟨hc,-⟩
      rw [hc]
      rfl
  | upgrade =>
    have hp : ∀ v : Governed, v.poll .upgrade =
        ((upgradeBox self mgr).slot v).map fun b => (b.id,b.approvals.keys) := by
      intro v
      rw [upgradeBox,Option.map_map]
      rfl
    rw [hp,hp]
    refine pollMove_of_ballotMove ((upgradeBox self mgr).move w i w' trivial hx) ?_ ?_
    · intro _ _ hq
      rw [hq.call]
      rfl
    · rintro _ _ a ⟨hc,-⟩
      rw [hc]
      rfl

lemma exists_poll_of_approval (hx : (governanceSystem self mgr).exec i w = .ok w')
    {d a} (h : i.call.approval = some (d,a)) : ∃ id vts, w.poll d = some (id,vts) := by
  have hc := GovernanceCall.effect_of_ok hx
  generalize i.call = c at hc h
  cases hc with
  | approveTransfer _ p _ hp ha =>
    cases h
    rw [Governed.poll,transferBallot_active hp ha]
    exact ⟨_,_,rfl⟩
  | approveUpgrade _ p _ _ _ hp =>
    cases h
    rw [Governed.poll,hp]
    exact ⟨_,_,rfl⟩
  | _ => cases h

end

/-! ### Messages -/

structure ApprovalMessage where
  decision : Decision
  signer : Address
  issuedFor : Option Nat
  deriving DecidableEq

structure Mailroom where
  world : Governed
  inFlight : List ApprovalMessage
  counted : List (ApprovalMessage × Option Nat)

inductive MailAction
  | issue (decision : Decision) (signer : Address)
  | deliver (m : ApprovalMessage) (env : GovernanceEnv)
  | drop (m : ApprovalMessage)
  | call (i : GovernanceInvocation) (h : i.call.approval = none)

namespace Mailroom

def pendingId (s : Mailroom) (d : Decision) : Option Nat := (s.world.poll d).map Prod.fst

def receive (self managerAddress : Address) (env : GovernanceEnv) (m : ApprovalMessage)
    (s : Mailroom) : Mailroom :=
  match (governanceSystem self managerAddress).exec ⟨env,.approve m.decision m.signer⟩ s.world with
  | .ok world =>
    { world := world
      inFlight := s.inFlight.erase m
      counted := (m,s.pendingId m.decision) :: s.counted }
  | .error _ => { s with inFlight := s.inFlight.erase m }

def step (self managerAddress : Address) (s : Mailroom) : MailAction → Mailroom
  | .issue decision signer =>
    { s with inFlight := ⟨decision,signer,s.pendingId decision⟩ :: s.inFlight }
  | .deliver m env => if m ∈ s.inFlight then s.receive self managerAddress env m else s
  | .drop m => { s with inFlight := s.inFlight.erase m }
  | .call i _ => { s with world := (governanceSystem self managerAddress).apply s.world i }

end Mailroom

def mailroom (self managerAddress : Address) : Transactional Mailroom MailAction Empty where
  exec := fun action s => .ok (s.step self managerAddress action)

namespace Mailroom

def OpensClear (s : Mailroom) : MailAction → Prop
  | .call i _ => ∀ d ∈ i.call.opens, ∀ m ∈ s.inFlight, m.decision = d → m.issuedFor = none
  | _ => True

instance (s : Mailroom) : (action : MailAction) → Decidable (s.OpensClear action)
  | .call i _ => inferInstanceAs (Decidable (∀ d ∈ i.call.opens, _))
  | .issue .. | .deliver .. | .drop .. => isTrue trivial

def Current (s : Mailroom) : Prop :=
  ∀ m ∈ s.inFlight, ∀ n id, m.issuedFor = some n → s.pendingId m.decision = some id → id = n

def Bound (s : Mailroom) : Prop :=
  ∀ m toward n, (m,toward) ∈ s.counted → m.issuedFor = some n → toward = some n

def Recorded (s : Mailroom) : Prop :=
  ∀ d id voters, s.world.poll d = some (id,voters) → ∀ a ∈ voters,
    ∃ m, (m,some id) ∈ s.counted ∧ m.decision = d ∧ m.signer = a

variable {self mgr : Address} {s : Mailroom} {action : MailAction}

lemma receive_cases (self mgr env m) (s : Mailroom) :
    s.receive self mgr env m = { s with inFlight := s.inFlight.erase m } ∨
      ∃ world id vts,
        (governanceSystem self mgr).exec ⟨env,.approve m.decision m.signer⟩ s.world =
          .ok world ∧
        s.world.poll m.decision = some (id,vts) ∧ s.receive self mgr env m =
            { world := world
              inFlight := s.inFlight.erase m
              counted := (m,some id) :: s.counted } := by
  unfold receive
  split
  · next world hx =>
    obtain ⟨id,vts,hp⟩ :=
      exists_poll_of_approval hx (GovernanceCall.approval_approve m.decision m.signer)
    refine .inr ⟨world,id,vts,hx,hp,?_⟩
    rw [pendingId,hp]
    rfl
  · exact .inl rfl

lemma pendingId_of_exec {i w w'} (hx : (governanceSystem self mgr).exec i w = .ok w')
    {d id} (h : (w'.poll d).map Prod.fst = some id) : (w.poll d).map Prod.fst = some id ∨
    i.call.opens = some d := by
  have hm := poll_move hx d
  generalize w.poll d = poll at hm ⊢
  generalize w'.poll d = poll' at hm h
  cases hm with
  | kept => exact .inl h
  | closed => cases h
  | opened _ _ ho => exact .inr ho
  | approved => exact .inl h

lemma Current.erase (h : s.Current) (m : ApprovalMessage) :
    Current { s with inFlight := s.inFlight.erase m } :=
  fun m' hm' => h m' (mem_of_mem_erase hm')

lemma Current.step (h : s.Current) (hc : s.OpensClear action) :
    (s.step self mgr action).Current := by
  cases action with
  | issue =>
    intro m hm n id hn hi
    obtain rfl | hm := mem_cons.mp hm
    · exact Option.some.inj (hi.symm.trans hn)
    · exact h m hm n id hn hi
  | drop m => exact h.erase m
  | deliver m env =>
    rw [Mailroom.step]
    split
    · obtain he | ⟨world,id,vts,hx,-,he⟩ := receive_cases self mgr env m s
      · rw [he]
        exact h.erase m
      rw [he]
      intro m' hm' n id' hn hi'
      obtain hi' | hop := pendingId_of_exec hx hi'
      · exact h m' (mem_of_mem_erase hm') n id' hn hi'
      · cases hd : m.decision <;> rw [hd] at hop <;> cases hop
    · exact h
  | call =>
    refine apply_cases (S := governanceSystem self mgr)
      (I := fun world => Current { s with world := world }) h fun world hx => ?_
    intro m hm n id hn hi
    obtain hi | hop := pendingId_of_exec hx hi
    · exact h m hm n id hn hi
    · exact absurd (hn.symm.trans (hc _ hop m hm rfl)) nofun

lemma Bound.step (h : s.Bound) (hc : s.Current) : (s.step self mgr action).Bound := by
  cases action with
  | deliver m env =>
    rw [Mailroom.step]
    split
    · next hm =>
      obtain he | ⟨world,id,vts,-,hp,he⟩ := receive_cases self mgr env m s
      · rw [he]
        exact h
      rw [he]
      intro m' toward n hmem hn
      obtain hw | hmem := mem_cons.mp hmem
      · -- the approval that arrives was issued for what is pending now
        cases hw
        have hd : s.pendingId m.decision = some id := by
          rw [pendingId,hp]
          rfl
        rw [hc m hm n id hn hd]
      · exact h m' toward n hmem hn
    · exact h
  | _ => exact h

lemma Recorded.exec (h : s.Recorded) {i world}
    (hx : (governanceSystem self mgr).exec i s.world = .ok world) {d}
    (hd : ∀ a, i.call.approval ≠ some (d,a)) {id vts} (hpo : world.poll d = some (id,vts)) {a}
    (ha : a ∈ vts) : ∃ m, (m,some id) ∈ s.counted ∧ m.decision = d ∧ m.signer = a := by
  have hm := poll_move hx d
  rw [hpo] at hm
  generalize ho : s.world.poll d = poll at hm
  cases hm with
  | kept => exact h d id vts ho a ha
  | opened => cases ha
  | approved _ a' _ _ hp => exact absurd hp (hd a')

lemma Recorded.step (h : s.Recorded) : (s.step self mgr action).Recorded := by
  cases action with
  | issue | drop => exact h
  | call i hi =>
    refine apply_cases (S := governanceSystem self mgr)
      (I := fun world => Recorded { s with world := world }) h fun world hx => ?_
    intro d id vs hpo a ha
    exact h.exec hx (fun _ hp => absurd (hi.symm.trans hp) nofun) hpo ha
  | deliver m env =>
    rw [Mailroom.step]
    split
    · obtain he | ⟨world,id,vs,hx,hpo,he⟩ := receive_cases self mgr env m s
      · rw [he]
        exact h
      rw [he]
      have hp := GovernanceCall.approval_approve m.decision m.signer
      intro d id' voters' hp' a ha
      obtain rfl | hd := eq_or_ne d m.decision
      · have hv := poll_move hx m.decision
        rw [hp',hpo] at hv
        cases hv with
        | kept =>
          obtain ⟨m',hm',hr⟩ := h _ id vs hpo a ha
          exact ⟨m',mem_cons_of_mem _ hm',hr⟩
        | opened => cases ha
        | approved _ a' _ _ hs hvo =>
          cases hp.symm.trans hs
          obtain rfl | ha := hvo a ha
          · exact ⟨m,mem_cons_self,rfl,rfl⟩
          · obtain ⟨m',hm',hr⟩ := h _ id vs hpo a ha
            exact ⟨m',mem_cons_of_mem _ hm',hr⟩
      · obtain ⟨m',hm',hr⟩ := h.exec hx
          (fun _ ho => hd (congrArg Prod.fst (Option.some.inj (ho.symm.trans hp))))
          hp' ha
        exact ⟨m',mem_cons_of_mem _ hm',hr⟩
    · exact h

def start (manager : LoanManager) : Mailroom := ⟨⟨.empty,manager⟩,[],[]⟩

end Mailroom

open Mailroom in
/-- **Approvals bind to what was approved**, if nothing new is put to the vote while approvals of
something earlier are under way: every approval that was issued while something was pending was
counted toward that. -/
theorem approvals_bind (self managerAddress : Address) (manager : LoanManager)
    (actions : List MailAction) :
    let s := (mailroom self managerAddress).run (.start manager) actions
    ((mailroom self managerAddress).Along OpensClear (.start manager) actions →
        ∀ m toward n, (m, toward) ∈ s.counted → m.issuedFor = some n → toward = some n) ∧
      ∀ d id voters, s.world.poll d = some (id, voters) → ∀ a ∈ voters,
        ∃ m, (m, some id) ∈ s.counted ∧ m.decision = d ∧ m.signer = a := by
  intro s
  refine ⟨fun hc => ?_,?_⟩
  · have hn : s.Current ∧ s.Bound := by
      refine along_induction (I := fun s : Mailroom => s.Current ∧ s.Bound) ?_ ?_ hc
      · rintro s action s' ⟨hu,hb⟩ hc hs
        cases hs
        exact ⟨hu.step hc,hb.step hu⟩
      · refine ⟨fun _ hm => ?_,fun _ _ _ hm => ?_⟩ <;> cases hm
    exact hn.2
  · have hn : s.Recorded := by
      refine run_induction (I := Recorded) ?_ ?_ actions
      · intro s action s' hr hs
        cases hs
        exact hr.step
      · intro d id voters hp
        cases d <;> cases hp
    exact hn

def MailAction.lateDelivery (meanwhile : List MailAction) : List MailAction :=
  [.call ⟨.smallAt 100,.initializeGovernance ⟨4⟩ ⟨2⟩⟩ rfl,
    .call ⟨.smallAt 100,.configureUpgradeSigners [⟨5⟩,⟨6⟩,⟨7⟩] 2⟩ rfl,
    .call ⟨.smallAt 200,.queueUpgrade ⟨5⟩ ⟨3⟩ 11⟩ rfl,
    .issue .upgrade ⟨6⟩] ++ meanwhile ++
  [.deliver ⟨.upgrade,⟨6⟩,some 1⟩ (.smallAt 400)]

theorem approvals_bind_undisturbed :
    let actions := MailAction.lateDelivery []
    let s := (mailroom ⟨8⟩ ⟨2⟩).run (.start .empty) actions
    (mailroom ⟨8⟩ ⟨2⟩).Along Mailroom.OpensClear (.start .empty) actions ∧
      s.counted = [(⟨.upgrade,⟨6⟩,some 1⟩, some 1)] ∧
        ∀ m toward n, (m, toward) ∈ s.counted → m.issuedFor = some n → toward = some n :=
  ⟨by decide +kernel,by decide +kernel,
    (approvals_bind ⟨8⟩ ⟨2⟩ .empty (MailAction.lateDelivery [])).1 (by decide +kernel)⟩

/-- The upgrade is cancelled and another code is queued; the approval counts toward that. -/
theorem approvals_bind_replaced :
    let actions := MailAction.lateDelivery
      [.call ⟨.smallAt 300,.cancelUpgrade ⟨5⟩⟩ rfl,
        .call ⟨.smallAt 300,.queueUpgrade ⟨5⟩ ⟨3⟩ 99⟩ rfl]
    let s := (mailroom ⟨8⟩ ⟨2⟩).run (.start .empty) actions
    s.world.poll .upgrade = some (2, [⟨6⟩]) ∧ (⟨.upgrade,⟨6⟩,some 1⟩, some 2) ∈ s.counted :=
  ⟨by decide +kernel,by decide +kernel⟩

end DukaPay
