import DukaPay.Contractlib.History
import DukaPay.Contractlib.Storage
import DukaPay.Money
import DukaPay.Soroban

/-! A settler commits to the hash of an amount and a nonce, and reveals them in a later ledger. -/
namespace DukaPay
open Contractlib Transactional

structure PayloadHash where
  sha256 : List UInt8 → Bytes32
  amountXdr : Int → List UInt8
  nonceXdr : Bytes32 → List UInt8

def PayloadHash.computed (h : PayloadHash) (amount : Int) (nonce : Bytes32) : Bytes32 :=
  h.sha256 (h.amountXdr amount ++ h.nonceXdr nonce)

inductive SettlementEvent
  | SettlementCommitted (settler : Address) (ledger : Nat)
  | SettlementRevealed (settler token : Address) (amount : Int)

structure Settlements where
  commitments : Storage Address (Bytes32 × Nat)
  events : List SettlementEvent

namespace Settlements

def minRevealDelay : Nat := 1

def maxRevealWindow : Nat := 100

def empty : Settlements := ⟨∅,[]⟩

def publish (e : SettlementEvent) (s : Settlements) : Settlements :=
  { s with events := e :: s.events }

def commitSettlement (env : Env) (settler : Address) (commitmentHash : Bytes32) (s : Settlements) :
    Res Settlements := do
  env.requireAuth settler
  pure ({ s with
    commitments := s.commitments.insert settler (commitmentHash,env.sequence) }.publish
      (.SettlementCommitted settler env.sequence))

def revealSettlement (h : PayloadHash) (env : Env) (settler token : Address) (amount : Int)
    (nonce : Bytes32) (s : Settlements) : Settlements × Res Unit :=
  match env.requireAuth settler with
  | .error e => (s,.error e)
  | .ok () =>
    match s.commitments.lookup settler with
    | none => (s,.error (.pool .CommitmentNotFound))
    | some (storedHash,commitLedger) =>
      match u32.checkedAdd commitLedger minRevealDelay with
      | none => (s,.error (.panic "attempt to add with overflow"))
      | some earliest =>
        if env.sequence < earliest then (s,.error (.pool .CommitmentTooEarly))
        else
          match u32.checkedAdd commitLedger maxRevealWindow with
          | none => (s,.error (.panic "attempt to add with overflow"))
          | some latest =>
            if latest < env.sequence then
              -- the commitment is removed before the error is returned
              ({ s with commitments := s.commitments.erase settler },
                .error (.pool .CommitmentExpired))
            else if storedHash ≠ h.computed amount nonce then
              (s,.error (.pool .InvalidCommitmentHash))
            else
              ({ s with commitments := s.commitments.erase settler }.publish
                (.SettlementRevealed settler token amount),.ok ())

def discard (left : Settlements × Res Unit) : Res Settlements :=
  match left.2 with
  | .ok () => .ok left.1
  | .error e => .error e

variable {h : PayloadHash} {env : Env} {settler token : Address} {amount : Int} {nonce : Bytes32}
  {s s' : Settlements}

lemma reveal_eq_ok (hx : discard (s.revealSettlement h env settler token amount nonce) = .ok s') :
    ∃ commitLedger, s.commitments.lookup settler = some (h.computed amount nonce,commitLedger) ∧
    commitLedger + minRevealDelay ≤ env.sequence ∧ env.sequence ≤ commitLedger + maxRevealWindow ∧
    s'.commitments = s.commitments.erase settler := by
  unfold revealSettlement at hx
  split at hx
  · cases hx
  split at hx
  · cases hx
  next storedHash commitLedger hs =>
  split at hx
  · cases hx
  next earliest he =>
  split at hx
  · cases hx
  next hd =>
  split at hx
  · cases hx
  next latest hl =>
  split at hx
  · cases hx
  next hw =>
  split at hx
  · cases hx
  next hh =>
  cases hx
  obtain ⟨-,rfl⟩ := NatType.checkedAdd_eq_some.mp he
  obtain ⟨-,rfl⟩ := NatType.checkedAdd_eq_some.mp hl
  rw [not_not.mp hh] at hs
  exact ⟨commitLedger,hs,not_lt.mp hd,not_lt.mp hw,rfl⟩

end Settlements

inductive SettlementCall
  | commitSettlement (settler : Address) (commitmentHash : Bytes32)
  | revealSettlement (settler token : Address) (amount : Int) (nonce : Bytes32)

namespace SettlementCall

def settler : SettlementCall → Address
  | .commitSettlement settler _ => settler
  | .revealSettlement settler _ _ _ => settler

def exec (h : PayloadHash) (env : Env) (s : Settlements) : SettlementCall → Res Settlements
  | .commitSettlement settler commitmentHash => s.commitSettlement env settler commitmentHash
  | .revealSettlement settler token amount nonce =>
    Settlements.discard (s.revealSettlement h env settler token amount nonce)

end SettlementCall

structure SettlementInvocation where
  env : Env
  call : SettlementCall

def settlementSystem (h : PayloadHash) : Transactional Settlements SettlementInvocation Fault where
  exec := fun i s => i.call.exec h i.env s

namespace Settlements
variable {h : PayloadHash} {env : Env} {settler token : Address} {amount : Int} {nonce : Bytes32}
  {s s' : Settlements} {cs : List SettlementInvocation}

lemma lookup_of_exec {i} (hx : (settlementSystem h).exec i s = .ok s') :
    s'.commitments.lookup i.call.settler = none ∨ ∃ ch, i.call =
    .commitSettlement i.call.settler ch ∧ i.env.Authorized i.call.settler ∧
    s'.commitments.lookup i.call.settler = some (ch,i.env.sequence) := by
  obtain ⟨_,call⟩ := i
  cases call with
  | commitSettlement settler ch =>
    simp only [settlementSystem,SettlementCall.exec,commitSettlement,eq_ok] at hx
    obtain ⟨ha,rfl⟩ := hx
    exact .inr ⟨ch,rfl,ha,AList.lookup_insert _⟩
  | revealSettlement =>
    obtain ⟨_,-,-,-,hg⟩ := reveal_eq_ok hx
    rw [hg]
    exact .inl (AList.lookup_erase _ _)

lemma lookup_of_exec_ne {i}
    (hx : (settlementSystem h).exec i s = .ok s') (hn : i.call.settler ≠ settler) :
    s'.commitments.lookup settler = s.commitments.lookup settler := by
  obtain ⟨_,call⟩ := i
  cases call with
  | commitSettlement =>
    simp only [settlementSystem,SettlementCall.exec,commitSettlement,eq_ok] at hx
    obtain ⟨-,rfl⟩ := hx
    exact AList.lookup_insert_ne hn.symm
  | revealSettlement =>
    obtain ⟨_,-,-,-,hg⟩ := reveal_eq_ok hx
    rw [hg]
    exact AList.lookup_erase_ne hn.symm

/-- The last call of the settler in `cs` is the commitment that a reveal opens, within its window. -/
def Matched (h : PayloadHash) (s : Settlements) (cs : List SettlementInvocation)
    (settler : Address) (amount : Int) (nonce : Bytes32) (ledger : Nat) : Prop :=
  ∃ t i t' rest, (settlementSystem h).Returned s cs t i t' rest ∧
    i.call = .commitSettlement settler (h.computed amount nonce) ∧ i.env.Authorized settler ∧
      i.env.sequence + 1 ≤ ledger ∧ ledger ≤ i.env.sequence + 100 ∧
        (settlementSystem h).NoneReturned (fun d => d.call.settler = settler) t' rest

lemma matched_of_reveal (ht : s.commitments.lookup settler = none)
    (hx : (settlementSystem h).exec ⟨env,.revealSettlement settler token amount nonce⟩
    ((settlementSystem h).run s cs) = .ok s') :
    Matched h s cs settler amount nonce env.sequence := by
  obtain ⟨_,ho,hd,hwn,-⟩ := reveal_eq_ok hx
  have hk : ∀ s i s', (settlementSystem h).exec i s = .ok s' → ¬ i.call.settler = settler →
      s'.commitments.lookup settler = s.commitments.lookup settler := fun _ _ _ hx he =>
    lookup_of_exec_ne hx he
  obtain hn | ⟨t,i,t',rest,hr,hi,hl⟩ :=
    last_returned (settlementSystem h) (fun d => d.call.settler = settler) s cs
  · -- the settler has called nothing, so there is still no commitment
    have hs := run_frame (f := fun s : Settlements => s.commitments.lookup settler) hk hn
    rw [ho,ht] at hs
    cases hs
  have hs := run_frame (f := fun s : Settlements => s.commitments.lookup settler) hk hl
  rw [← hr.run_eq,ho] at hs
  have hc := lookup_of_exec hr.exec
  rw [hi] at hc
  obtain hg | ⟨commitmentHash,hm,ha,hw⟩ := hc
  · exact absurd (hs.trans hg) nofun
  · cases hs.trans hw
    exact ⟨t,i,t',rest,hr,hm,ha,hd,hwn,hl⟩

end Settlements

open Settlements in
/-- **Commit and reveal**, in every run from no commitments. A reveal that returns is matched by the
last commitment of its settler, which is not older than 100 ledgers nor of the same ledger, and has
its hash. -/
theorem commit_reveal (h : PayloadHash) (cs : List SettlementInvocation) :
    let S := settlementSystem h
    let s := S.run .empty cs
    ∀ env settler token amount nonce,
      (∀ s', S.exec ⟨env,.revealSettlement settler token amount nonce⟩ s = .ok s' →
        Matched h .empty cs settler amount nonce env.sequence ∧
          ∀ cs' env' token' amount' nonce' s'',
            S.exec ⟨env',.revealSettlement settler token' amount' nonce'⟩ (S.run s' cs') =
                .ok s'' →
              Matched h s' cs' settler amount' nonce' env'.sequence) ∧
        (Fails (S.exec ⟨env,.revealSettlement settler token amount nonce⟩ s) →
          (S.apply s ⟨env,.revealSettlement settler token amount nonce⟩).commitments =
            s.commitments) := by
  intro S s env settler token amount nonce
  refine ⟨fun s' he => ⟨matched_of_reveal rfl he,?_⟩,?_⟩
  · intro cs' env' token' amount' nonce' s'' hexec'
    obtain ⟨_,-,-,-,hg⟩ := reveal_eq_ok he
    refine matched_of_reveal ?_ hexec'
    rw [hg]
    exact AList.lookup_erase _ _
  · rintro ⟨e,hf⟩
    rw [apply_of_error hf]

end DukaPay
