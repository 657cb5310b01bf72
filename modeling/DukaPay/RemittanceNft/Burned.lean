import DukaPay.Contractlib.History
import DukaPay.RemittanceNft.Accounts

/-! A user who was burned is meant to hold an NFT again only after the admin approved it and minted
it anew. -/
namespace DukaPay
open Contractlib Transactional Function

namespace RemittanceNft

def Account.Exclusive (a : Account) : Prop := a.burned = true → a.score = none

lemma exclusive_account {user} {s : RemittanceNft} :
    (s.account user).Exclusive ↔ ¬ (s.burned user = true ∧ s.hasActiveNft user = true) := by
  rw [Account.Exclusive,← hasActiveNft_eq_false,not_and,Bool.not_eq_true]
  rfl

end RemittanceNft

namespace NftCall
open RemittanceNft

def SparesBurned (s : RemittanceNft) (c : NftCall) : Prop :=
  ∀ dst ∈ c.transferTarget, s.burned dst = false

instance (s : RemittanceNft) (c : NftCall) : Decidable (c.SparesBurned s) :=
  inferInstanceAs (Decidable (∀ dst ∈ c.transferTarget, s.burned dst = false))

variable {accounts accounts' : Address → Account} {c : NftCall} {user : Address}

lemma Move.unapproved_of_burned (h : c.Move accounts accounts')
    (hb : (accounts user).burned = false) (ha : (accounts' user).burned = true) :
    (accounts' user).approved = false := by
  cases h with
  | burned _ _ v =>
    by_cases hv : user = v
    · rw [hv,update_self]
      rfl
    · rw [update_of_ne hv,hb] at ha
      cases ha
  | _ =>
    -- no other move sets the flag
    grind [update_apply,Account.rescore]

lemma Move.remint_of_unburned (h : c.Move accounts accounts')
    (hb : (accounts user).burned = true) (ha : (accounts' user).burned = false) :
    (accounts user).approved = true ∧ ∃ score hi uri recipientCommitment,
    c = .adminRemint user score hi uri recipientCommitment := by
  cases h with
  | reminted v score hi uri recipientCommitment _ _ hp =>
    obtain rfl | hv := eq_or_ne user v
    · exact ⟨hp,score,hi,uri,recipientCommitment,rfl⟩
    · rw [update_of_ne hv,hb] at ha
      cases ha
  | _ => grind [update_apply,Account.rescore,Account.burnt]

lemma Move.approve_of_approved (h : c.Move accounts accounts')
    (hb : (accounts user).approved = false) (ha : (accounts' user).approved = true) :
    c = .approveRemint user := by
  cases h with
  | approved v =>
    by_cases hv : user = v
    · rw [hv]
    · rw [update_of_ne hv,hb] at ha
      cases ha
  | _ => grind [update_apply,Account.rescore,Account.burnt]

end NftCall

namespace RemittanceNft
open NftCall
variable {s : RemittanceNft}

lemma sparesBurned_of_target_eq_none {c : NftCall} (h : c.transferTarget = none) :
    c.SparesBurned s := by
  intro dst hd
  rw [h] at hd
  cases hd

lemma exclusive_iff_sparesBurned {c : NftCall} {accounts'}
    (hm : c.Move s.account accounts') (hs : ∀ user, (s.account user).Exclusive) :
    (∀ user, (accounts' user).Exclusive) ↔ c.SparesBurned s := by
  cases hm with
  | kept _ hc => exact iff_of_true hs (sparesBurned_of_target_eq_none hc)
  | trimmed user _ _ | approved user =>
    refine iff_of_true ?_ (sparesBurned_of_target_eq_none rfl)
    exact Account.forall_update hs user (hs user)
  | minted user _ _ _ _ _ _ hb =>
    refine iff_of_true (Account.forall_update hs user fun hf => ?_)
      (sparesBurned_of_target_eq_none rfl)
    exact absurd (hb.symm.trans hf) Bool.false_ne_true
  | reminted user _ _ _ _ _ _ _ =>
    refine iff_of_true (Account.forall_update hs user fun hf => ?_)
      (sparesBurned_of_target_eq_none rfl)
    exact absurd hf Bool.false_ne_true
  | rescored _ hc user ent ho _ =>
    refine iff_of_true (Account.forall_update hs user fun hf => ?_)
      (sparesBurned_of_target_eq_none hc)
    exact absurd (ho.symm.trans (hs user hf)) (Option.some_ne_none _)
  | burned _ hc user _ =>
    exact iff_of_true (Account.forall_update hs user fun _ => rfl)
      (sparesBurned_of_target_eq_none hc)
  | moved src dst _ hn ha _ hist _ =>
    constructor
    · rintro h _ ⟨⟩
      have hd := h dst
      rw [update_of_ne hn.symm,update_self] at hd
      exact Bool.eq_false_iff.mpr fun hf => ha (hd hf)
    · intro hp
      refine Account.forall_update (Account.forall_update hs dst fun hf => ?_) src fun _ => rfl
      exact absurd ((hp dst rfl).symm.trans hf) Bool.false_ne_true

lemma exclusive_run {scs cs}
    (hc : nftSystem.Along (fun s i => i.call.SparesBurned s) (legacy scs) cs)
    (user) : ((nftSystem.run (legacy scs) cs).account user).Exclusive := by
  refine along_induction (S := nftSystem) (I := fun s => ∀ user, (s.account user).Exclusive)
    (fun s i s' hs hi hx => ?_) (fun v hf => ?_) hc user
  · exact (exclusive_iff_sparesBurned (move_of_ok hx) hs).mpr hi
  · cases hf

lemma approved_and_reminted {user cs} (hb : s.burned user = true)
    (hp : s.remintApproval user = false) (hf : (nftSystem.run s cs).burned user = false) :
    ∃ t a t' rest, nftSystem.Returned s cs t a t' rest ∧ a.call = .approveRemint user ∧
    ∃ u r u' last, nftSystem.Returned t' rest u r u' last ∧
    ∃ initialScore historyHash metadataUri recipientCommitment, r.call =
    .adminRemint user initialScore historyHash metadataUri recipientCommitment := by
  -- the call that took the flag away
  have hl : ¬ s.burned user = false := fun h => Bool.false_ne_true (h.symm.trans hb)
  obtain ⟨u,r,u',last,hr,hu,hh⟩ :=
    exists_last_change (S := nftSystem) (J := fun s => s.burned user = false) hl hf
  obtain ⟨hu_approved,hm⟩ :=
    (move_of_ok hr.exec).remint_of_unburned (Bool.not_eq_false _ ▸ hu) hh.head
  -- the call that gave the approval, before that one
  have hap : ¬ s.remintApproval user = true := fun h =>
    Bool.false_ne_true (hp.symm.trans h)
  obtain ⟨t,a,t',rest,ha,ht,ht',hr'⟩ :=
    hr.exists_earlier_change (J := fun s => s.remintApproval user = true) hap hu_approved
  have ho : a.call = .approveRemint user :=
    (move_of_ok ha.exec).approve_of_approved (Bool.not_eq_true _ ▸ ht) ht'
  exact ⟨t,a,t',rest,ha,ho,u,r,u',last,hr',hm⟩

/-- **Burned until reminted**: if no call transfers an NFT to a burned account, no user is burned
and holds an NFT, and a user whom a call burned and who holds an NFT later was approved for a remint
and reminted after that call. -/
theorem burned_until_reminted (scores : Storage Address Nat) (cs : List NftInvocation)
    (hcs : nftSystem.Along (fun s i => i.call.SparesBurned s) (legacy scores) cs) (user : Address) :
    ¬ ((nftSystem.run (legacy scores) cs).burned user = true ∧
      (nftSystem.run (legacy scores) cs).hasActiveNft user = true) ∧
      ∀ s i s' later, nftSystem.Returned (legacy scores) cs s i s' later →
      s.burned user = false → s'.burned user = true →
      (nftSystem.run (legacy scores) cs).hasActiveNft user = true →
      ∃ t a t' rest, nftSystem.Returned s' later t a t' rest ∧ a.call = .approveRemint user ∧
      ∃ u r u' last, nftSystem.Returned t' rest u r u' last ∧
      ∃ initialScore historyHash metadataUri recipientCommitment, r.call =
      .adminRemint user initialScore historyHash metadataUri recipientCommitment := by
  have he := exclusive_account.mp (exclusive_run hcs user)
  refine ⟨he,fun s i s' later hb hs hs' ha => ?_⟩
  have hp : s'.remintApproval user = false :=
    (move_of_ok hb.exec).unapproved_of_burned hs hs'
  refine approved_and_reminted hs' hp ?_
  rw [← hb.run_eq]
  exact Bool.eq_false_iff.mpr fun hf => he ⟨hf,ha⟩

def mintRun : List NftInvocation :=
  [⟨.small 1,.initializeNft ⟨3⟩⟩,⟨.small 2,.mint ⟨5⟩ 500 7 "ipfs://5" 9 none⟩,
    ⟨.small 2,.mint ⟨7⟩ 600 7 "ipfs://7" 9 none⟩]

def burnOf5 : NftInvocation := ⟨.small 3,.burn ⟨5⟩ none⟩

def remintRun : List NftInvocation :=
  [⟨.small 4,.approveRemint ⟨5⟩⟩,⟨.small 5,.transfer ⟨7⟩ ⟨6⟩ none⟩,
    ⟨.small 6,.adminRemint ⟨5⟩ 400 7 "ipfs://5" 9⟩]

theorem burned_until_reminted_remintRun :
    nftSystem.Along (fun s i => i.call.SparesBurned s) (legacy ∅)
    (mintRun ++ burnOf5 :: remintRun) ∧
    ∃ s', nftSystem.exec burnOf5 (nftSystem.run (legacy ∅) mintRun) = .ok s' ∧
    ∃ t a t' rest, nftSystem.Returned s' remintRun t a t' rest ∧ a.call = .approveRemint ⟨5⟩ := by
  have hs : nftSystem.Along (fun s i => i.call.SparesBurned s) (legacy ∅)
      (mintRun ++ burnOf5 :: remintRun) := by
    decide +kernel
  have he := eq_ok_of_not_fails
    (x := nftSystem.exec burnOf5 (nftSystem.run (legacy ∅) mintRun)) (by decide +kernel) (legacy ∅)
  obtain ⟨-,hr⟩ := burned_until_reminted ∅ (mintRun ++ burnOf5 :: remintRun) hs ⟨5⟩
  obtain ⟨t,a,t',rest,ha,hc,-⟩ := hr _ _ _ _ ⟨mintRun,rfl,rfl,he⟩
    (by decide +kernel) (by decide +kernel) (by decide +kernel)
  exact ⟨hs,_,he,t,a,t',rest,ha,hc⟩

def transferRun : List NftInvocation :=
  [⟨.small 1,.initializeNft ⟨3⟩⟩,⟨.small 2,.mint ⟨5⟩ 500 7 "ipfs://5" 9 none⟩,
    ⟨.small 3,.mint ⟨6⟩ 300 7 "ipfs://6" 9 none⟩,⟨.small 4,.burn ⟨6⟩ none⟩,
    ⟨.small 5,.transfer ⟨5⟩ ⟨6⟩ none⟩]

/-- Without any approval or remint, a burned user holds an NFT, and still has the flag. -/
theorem burned_until_reminted_transferRun :
    (nftSystem.run (legacy ∅) transferRun).burned ⟨6⟩ = true ∧
    (nftSystem.run (legacy ∅) transferRun).hasActiveNft ⟨6⟩ = true := by
  decide +kernel

/-! ### Transfer -/

/-- What the contract tells about a user. -/
structure Identity where
  metadata : Option RemittanceMetadata
  history : List ScoreHistoryEntry
  defaultCount : Nat
  seized : Bool

def identity (s : RemittanceNft) (user : Address) : Identity where
  metadata := (s.getMetadata user).1
  history := (s.scoreHistory.lookup user).getD []
  defaultCount := (s.defaultCount.lookup user).getD 0
  seized := s.seized user

lemma getMetadata_eq (s : RemittanceNft) (user) : (s.getMetadata user).1 =
    (s.metadata.lookup user).or ((s.scores.lookup user).map fun score => ⟨score,0,""⟩) := by
  unfold getMetadata getOrMigrateMetadata
  split
  · next hm => simp [hm]
  · next hm =>
    split
    · next hs => simp [hm,hs]
    · next hs => simp [hm,hs]

lemma frame_of_requireMetadata {s s' : RemittanceNft} {user m}
    (h : s.requireMetadata user = .ok (m,s')) : (s.identity user).metadata = some m ∧
    (s'.scoreHistory = s.scoreHistory ∧ s'.defaultCount = s.defaultCount ∧ s'.seized = s.seized) ∧
    ∀ v, v ≠ user → s'.metadata.lookup v = s.metadata.lookup v ∧
    s'.scores.lookup v = s.scores.lookup v := by
  simp only [requireMetadata,eq_ok,Prod.mk.injEq] at h
  obtain ⟨_,hm,rfl,rfl⟩ := h
  refine ⟨hm,?_⟩
  unfold getOrMigrateMetadata
  split
  · exact ⟨⟨rfl,rfl,rfl⟩,fun _ _ => ⟨rfl,rfl⟩⟩
  split
  · exact ⟨⟨rfl,rfl,rfl⟩,fun v hv => by simp [hv]⟩
  · exact ⟨⟨rfl,rfl,rfl⟩,fun _ _ => ⟨rfl,rfl⟩⟩

lemma getD_or_eq_iff {V : Type} (a b : Option V) (x) :
    (a.or b).getD x = a.getD x ↔ a.isSome ∨ b.getD x = x := by
  cases a <;> simp

/-- **Transfer of an identity**: it moves exactly, and nobody else's changes, exactly when the source
has a record of each kind that is still stored for the destination. -/
theorem transfer_moves_iff (s s' : RemittanceNft) (env : Env) (src dst : Address)
    (minter : Option Address) (h : s.transfer env src dst minter = .ok s') :
    (s'.identity dst = s.identity src ∧ s'.identity src = ⟨none,[],0,false⟩ ∧
      ∀ user, user ≠ src → user ≠ dst → s'.identity user = s.identity user) ↔
      ((s.scoreHistory.lookup src).isSome ∨ (s.scoreHistory.lookup dst).getD [] = []) ∧
      ((s.defaultCount.lookup src).isSome ∨ (s.defaultCount.lookup dst).getD 0 = 0) ∧
      (s.seized src = true ∨ s.seized dst = false) := by
  simp only [transfer,eq_ok,Prod.exists] at h
  obtain ⟨hne,-,-,-,m,s₁,hm,-,hs'⟩ := h
  obtain ⟨he,⟨hh,hc,hz⟩,ht⟩ := frame_of_requireMetadata hm
  have hd : s'.identity dst =
      ⟨some m,((s.scoreHistory.lookup src).or (s.scoreHistory.lookup dst)).getD [],
        ((s.defaultCount.lookup src).or (s.defaultCount.lookup dst)).getD 0,
        s.seized src || s.seized dst⟩ := by
    rw [← hs',← hh,← hc,← hz]
    simp only [identity,getMetadata_eq,publish,lookup_moveEntry hne,hne.symm]
    cases s₁.seized src <;> simp [hne.symm]
  have hsr : s'.identity src = ⟨none,[],0,false⟩ := by
    rw [← hs']
    simp only [identity,getMetadata_eq,publish,lookup_moveEntry hne]
    cases hf : s₁.seized src <;> simp [hf]
  have ho (user : Address) (hu : user ≠ src) (hv : user ≠ dst) :
      s'.identity user = s.identity user := by
    obtain ⟨hm',hr⟩ := ht user hu
    rw [← hs']
    simp only [identity,getMetadata_eq,publish,lookup_moveEntry hne]
    cases s₁.seized src <;> simp [hu,hv,hm',hr,hh,hc,hz]
  have hf : (s.seized src || s.seized dst) = s.seized src ↔
      s.seized src = true ∨ s.seized dst = false := by
    cases s.seized src <;> simp
  rw [and_iff_left ⟨hsr,ho⟩,hd,← getD_or_eq_iff,← getD_or_eq_iff,← hf,← he]
  exact Identity.mk.injEq .. ▸ and_iff_right rfl

def burnedRun : List NftInvocation :=
  [⟨.small 1,.initializeNft ⟨3⟩⟩,⟨.small 2,.setDefaultBurnThreshold 1⟩,
    ⟨.small 2,.mint ⟨5⟩ 500 7 "ipfs://5" 9 none⟩,⟨.small 2,.mint ⟨6⟩ 600 8 "ipfs://6" 9 none⟩,
    ⟨.small 3,.recordDefault ⟨5⟩ none⟩]

/-- User 5 was burned after a default. The NFT of user 6, who never defaulted, arrives there with a
default. -/
theorem leftover_default : let s := nftSystem.run (legacy ∅) burnedRun
    (s.identity ⟨6⟩).defaultCount = 0 ∧
      (fun s' => (s'.identity ⟨5⟩).defaultCount) <$> s.transfer (.small 4) ⟨6⟩ ⟨5⟩ none = .ok 1 := by
  decide +kernel

theorem transfer_moves_iff_small : let s := nftSystem.run (legacy ∅) burnedRun
    ∃ s',s.transfer (.small 4) ⟨6⟩ ⟨7⟩ none = .ok s' ∧ s'.identity ⟨7⟩ = s.identity ⟨6⟩ := by
  have hok := eq_ok_of_not_fails (x := (nftSystem.run (legacy ∅) burnedRun).transfer (.small 4) ⟨6⟩
    ⟨7⟩ none) (by decide +kernel) (legacy ∅)
  exact ⟨_,hok,((transfer_moves_iff _ _ _ _ _ _ hok).mpr (by decide +kernel)).1⟩

end RemittanceNft

end DukaPay
