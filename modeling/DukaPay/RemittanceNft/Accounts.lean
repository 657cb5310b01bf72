import DukaPay.RemittanceNft.Defs

/-! An account is what the contract keeps for a user: the score of an NFT, its history, and whether
the user was burned and may be minted for again. -/
namespace DukaPay
open Contractlib Option Function RemittanceNft

namespace RemittanceNft

@[ext]
structure Account where
  score : Option Nat
  history : List ScoreHistoryEntry
  burned : Bool
  approved : Bool

def account (s : RemittanceNft) (user : Address) : Account where
  score := ((s.metadata.lookup user).map (·.score)).or (s.scores.lookup user)
  history := (s.scoreHistory.lookup user).getD []
  burned := s.burned user
  approved := s.remintApproval user

lemma Account.forall_update {P : Account → Prop} {acs : Address → Account}
    (h : ∀ user, P (acs user)) (user) {a} (ha : P a) : ∀ v, P (update acs user a v) :=
  (forall_update_iff acs fun _ a => P a).mpr ⟨ha,fun v _ => h v⟩

lemma hasActiveNft_eq (user) (s : RemittanceNft) :
    s.hasActiveNft user = (s.account user).score.isSome := by
  simp [hasActiveNft,account]

variable {user : Address} {s s' : RemittanceNft} {m : RemittanceMetadata}

lemma hasActiveNft_eq_false : s.hasActiveNft user = false ↔ (s.account user).score = none := by
  rw [hasActiveNft_eq,isSome_eq_false_iff,isNone_iff_eq_none]

@[simp] lemma account_publish (e) (s : RemittanceNft) : (s.publish e).account = s.account := rfl

/-! ### Metadata -/

lemma account_setMetadata (user m) (s : RemittanceNft) : (s.setMetadata user m).account =
    update s.account user { s.account user with score := some m.score } := by
  funext v
  obtain rfl | hv := eq_or_ne v user
  · simp [account,setMetadata]
  · simp [account,setMetadata,hv]

lemma account_getOrMigrateMetadata (user) (s : RemittanceNft) :
    (s.getOrMigrateMetadata user).2.account = s.account := by
  unfold getOrMigrateMetadata
  split
  · rfl
  · next hm =>
    split
    · next score hs =>
      funext v
      obtain rfl | hv := eq_or_ne v user
      · simp [account,hm,hs]
      · simp [account,hv]
    · rfl

lemma map_score_getOrMigrateMetadata (user) (s : RemittanceNft) :
    (s.getOrMigrateMetadata user).1.map (·.score) = (s.account user).score := by
  unfold getOrMigrateMetadata account
  split
  · next hm => simp [hm]
  · next hm =>
    split
    · next hs => simp [hm,hs]
    · next hs => simp [hm,hs]

lemma requireMetadata_eq_ok (h : s.requireMetadata user = .ok (m,s')) :
    (s.account user).score = some m.score ∧ s'.account = s.account := by
  simp only [requireMetadata,eq_ok] at h
  obtain ⟨_,hm,he⟩ := h
  cases he
  refine ⟨?_,account_getOrMigrateMetadata user s⟩
  rw [← map_score_getOrMigrateMetadata,hm]
  rfl

lemma account_setMetadata_same {m' : RemittanceMetadata} (h : s.requireMetadata user = .ok (m,s'))
    (hsc : m'.score = m.score) : (s'.setMetadata user m').account = s.account := by
  obtain ⟨hs,hs'⟩ := requireMetadata_eq_ok h
  rw [account_setMetadata,hs',hsc,← hs]
  exact update_eq_self user s.account

/-! ### History -/

def Account.rescore (entry : ScoreHistoryEntry) (a : Account) : Account :=
  { a with
    score := some entry.newScore
    history := latest (maxScoreHistoryEntries - 1) a.history ++ [entry] }

lemma account_writeScoreHistory (user) (history : List ScoreHistoryEntry) (s : RemittanceNft) :
    (s.writeScoreHistory user history).account =
    update s.account user { s.account user with history := history } := by
  funext v
  obtain rfl | hv := eq_or_ne v user
  · simp [account,writeScoreHistory]
  · simp [account,writeScoreHistory,hv]

lemma getScoreHistoryOrDefault_spec (user) (s : RemittanceNft) :
    (s.getScoreHistoryOrDefault user).1 = latest maxScoreHistoryEntries (s.account user).history ∧
    (s.getScoreHistoryOrDefault user).2.account = update s.account user { s.account user with
    history := latest maxScoreHistoryEntries (s.account user).history } := by
  have hk (h : (s.account user).history.length ≤ maxScoreHistoryEntries) :
      s.account = update s.account user { s.account user with
        history := latest maxScoreHistoryEntries (s.account user).history } := by
    rw [latest_of_length_le h]
    exact (update_eq_self user s.account).symm
  unfold getScoreHistoryOrDefault
  split
  · next history hl =>
    have hh : (s.account user).history = history := by rw [account,hl,getD_some]
    split
    · rw [hh]
      exact ⟨rfl,account_writeScoreHistory user _ s⟩
    · next hs =>
      have hs : (s.account user).history.length ≤ maxScoreHistoryEntries := by
        rw [hh]
        exact Nat.le_of_not_lt hs
      refine ⟨?_,hk hs⟩
      rw [latest_of_length_le hs,hh]
  · next hl =>
    have hh : (s.account user).history = [] := by rw [account,hl,getD_none]
    refine ⟨by rw [hh]; rfl,hk ?_⟩
    rw [hh]
    exact Nat.zero_le _

lemma account_setScore {env} (h : s.requireMetadata user = .ok (m,s')) (newScore rsn) :
    (s'.setScore env user m newScore rsn).account = update s.account user
    ((s.account user).rescore ⟨env.sequence,m.score,newScore,rsn⟩) := by
  obtain ⟨-,hs'⟩ := requireMetadata_eq_ok h
  obtain ⟨hr,hl⟩ :=
    getScoreHistoryOrDefault_spec user (s'.setMetadata user { m with score := newScore })
  rw [setScore,appendScoreHistory,account_writeScoreHistory,hl,hr,account_setMetadata,
    hs',latest_latest (by decide)]
  simp [Account.rescore]

/-! ### Burning and transfer -/

def Account.burnt : Account where
  score := none
  history := []
  burned := true
  approved := false

lemma account_burnInternal (user) (s : RemittanceNft) :
    (s.burnInternal user).account = update s.account user .burnt := by
  funext v
  obtain rfl | hv := eq_or_ne v user
  · simp [account,burnInternal,publish,Account.burnt]
  · simp [account,burnInternal,publish,hv]

@[simp] lemma account_markSeized (user) (s : RemittanceNft) :
    (s.markSeized user).account = s.account := by
  unfold markSeized
  split <;> rfl

lemma lookup_moveEntry {V : Type} {src dst} (h : src ≠ dst) (m : Storage Address V) (v : Address) :
    (moveEntry src dst m).lookup v =
      if v = src then none else if v = dst then (m.lookup src).or (m.lookup dst)
      else m.lookup v := by
  unfold moveEntry
  split
  · next value hs =>
    obtain rfl | hv := eq_or_ne v src
    · simp
    obtain rfl | hdst := eq_or_ne v dst
    · simp [hv,hs]
    · simp [hv,hdst]
  · next hs =>
    split
    · next hv => rw [hv,hs]
    split
    · next hv => rw [hv,hs,none_or]
    · rfl

end RemittanceNft

/-! ### Moves -/

open RemittanceNft in
inductive NftCall.Move (accounts : Address → Account) : NftCall → (Address → Account) → Prop
  | kept (c : NftCall) (hc : c.transferTarget = none) : Move accounts c accounts
  | trimmed (user : Address) (offset limit : Nat) :
    Move accounts (.getScoreHistory user offset limit)
      (Function.update accounts user { accounts user with
        history := latest maxScoreHistoryEntries (accounts user).history })
  | minted (user : Address) (initialScore : Nat) (historyHash : Bytes32) (metadataUri : String)
    (recipientCommitment : Bytes32) (minter : Option Address)
    (hnew : (accounts user).score = none) (hburned : (accounts user).burned = false) :
    Move accounts (.mint user initialScore historyHash metadataUri recipientCommitment minter)
      (Function.update accounts user { accounts user with
        score := some (min initialScore maxScore) })
  | reminted (user : Address) (initialScore : Nat) (historyHash : Bytes32)
    (metadataUri : String) (recipientCommitment : Bytes32)
    (hnew : (accounts user).score = none) (hburned : (accounts user).burned = true)
    (happroved : (accounts user).approved = true) :
    Move accounts (.adminRemint user initialScore historyHash metadataUri recipientCommitment)
      (Function.update accounts user { accounts user with
        score := some (min initialScore maxScore)
        burned := false
        approved := false })
  | approved (user : Address) : Move accounts (.approveRemint user)
      (Function.update accounts user { accounts user with approved := true })
  | rescored (c : NftCall) (hc : c.transferTarget = none) (user : Address)
    (entry : ScoreHistoryEntry) (hold : (accounts user).score = some entry.oldScore)
    (hnew : entry.newScore ≤ max entry.oldScore maxScore) :
    Move accounts c (Function.update accounts user ((accounts user).rescore entry))
  | burned (c : NftCall) (hc : c.transferTarget = none) (user : Address)
    (hactive : (accounts user).score ≠ none) :
    Move accounts c (Function.update accounts user .burnt)
  | moved (src dst : Address) (minter : Option Address) (hne : src ≠ dst)
    (hactive : (accounts src).score ≠ none) (hfree : (accounts dst).score = none)
    (history : List ScoreHistoryEntry)
    (hhistory : history = (accounts src).history ∨
      (accounts src).history = [] ∧ history = (accounts dst).history) :
    Move accounts (.transfer src dst minter)
      (Function.update
        (Function.update accounts dst { accounts dst with
          score := (accounts src).score
          history := history })
        src { accounts src with
          score := none
          history := []
          approved := false })

namespace NftCall
open RemittanceNft
variable {env : Env} {s s' : RemittanceNft}

lemma Move.of_account_eq {c : NftCall} (hc : c.transferTarget = none)
    (h : s'.account = s.account) : Move s.account c s'.account := by
  rw [h]
  exact .kept c hc

variable {user : Address} {minter : Option Address} {initialScore : Nat}
  {historyHash recipientCommitment : Bytes32} {metadataUri : String}

lemma move_mint
    (h : s.mint env user initialScore historyHash metadataUri recipientCommitment minter = .ok s') :
    Move s.account
    (.mint user initialScore historyHash metadataUri recipientCommitment minter) s'.account := by
  simp only [RemittanceNft.mint,eq_ok] at h
  obtain ⟨-,-,hn,hb,rfl⟩ := h
  rw [account_publish,account_setMetadata]
  exact .minted user _ _ _ _ _ (hasActiveNft_eq_false.mp hn) hb

lemma move_adminRemint
    (h : s.adminRemint env user initialScore historyHash metadataUri recipientCommitment = .ok s') :
    Move s.account
    (.adminRemint user initialScore historyHash metadataUri recipientCommitment) s'.account := by
  simp only [RemittanceNft.adminRemint,eq_ok] at h
  obtain ⟨-,-,-,hb,ha,hn,rfl⟩ := h
  convert Move.reminted user initialScore historyHash metadataUri recipientCommitment
    (hasActiveNft_eq_false.mp hn) hb ha using 1
  funext v
  obtain rfl | hv := eq_or_ne v user
  · simp [account,setMetadata,publish]
  · simp [account,setMetadata,publish,hv]

lemma move_approveRemint (h : s.approveRemint env user = .ok s') :
    Move s.account (.approveRemint user) s'.account := by
  simp only [RemittanceNft.approveRemint,eq_ok] at h
  obtain ⟨-,-,rfl⟩ := h
  convert Move.approved user using 1
  funext v
  obtain rfl | hv := eq_or_ne v user
  · simp [account,publish]
  · simp [account,publish,hv]

lemma move_getScoreHistory {offset limit p} (h : s.getScoreHistory user offset limit = .ok (p,s')) :
    Move s.account (.getScoreHistory user offset limit) s'.account := by
  have hs' : s' = (s.getScoreHistoryOrDefault user).2 := by
    unfold RemittanceNft.getScoreHistory at h
    simp only at h
    split at h
    · cases h
      rfl
    simp only [eq_ok] at h
    obtain ⟨_,-,he⟩ := h
    cases he
    rfl
  rw [hs',(getScoreHistoryOrDefault_spec user s).2]
  exact .trimmed user offset limit

lemma move_updateScore {repaymentAmount}
    (h : s.updateScore env user repaymentAmount minter = .ok s') :
    Move s.account (.updateScore user repaymentAmount minter) s'.account := by
  simp only [RemittanceNft.updateScore,eq_ok,Prod.exists] at h
  obtain ⟨-,-,-,-,_,_,hr,h⟩ := h
  obtain ⟨hs,hk⟩ := requireMetadata_eq_ok hr
  split at h
  · cases h
    exact .of_account_eq rfl hk
  cases h
  rw [account_publish,account_setScore hr]
  exact .rescored _ rfl user _ hs (le_max_of_le_right (Nat.min_le_right _ _))

lemma move_decreaseScore {penaltyPoints}
    (h : s.decreaseScore env user penaltyPoints minter = .ok s') :
    Move s.account (.decreaseScore user penaltyPoints minter) s'.account := by
  simp only [RemittanceNft.decreaseScore,bind_eq_ok,Unique.exists_iff] at h
  obtain ⟨-,h⟩ := h
  split at h
  · cases h
    exact .kept _ rfl
  simp only [bind_eq_ok,Prod.exists] at h
  obtain ⟨_,_,hr,h⟩ := h
  obtain ⟨hs,hk⟩ := requireMetadata_eq_ok hr
  split at h
  · cases h
    exact .of_account_eq rfl hk
  cases h
  rw [account_publish,account_setScore hr]
  refine .rescored _ rfl user _ hs ?_
  -- a score below the least credit score is raised to it
  exact max_le_max (Nat.sub_le _ _) (by decide)

lemma move_applyScoreDelta {δ} (h : s.applyScoreDelta env user δ minter = .ok s') :
    Move s.account (.applyScoreDelta user δ minter) s'.account := by
  simp only [RemittanceNft.applyScoreDelta,bind_eq_ok,Unique.exists_iff,Prod.exists] at h
  obtain ⟨-,m,_,hr,h⟩ := h
  obtain ⟨hs,hk⟩ := requireMetadata_eq_ok hr
  split at h
  · cases h
    exact .of_account_eq rfl hk
  cases h
  rw [account_publish,account_setScore hr]
  refine .rescored _ rfl user _ hs (le_max_of_le_right ?_)
  show (max 0 (min ((m.score : Int) + δ) maxScore)).toNat ≤ maxScore
  omega

lemma move_recordDefault (h : s.recordDefault env user minter = .ok s') :
    Move s.account (.recordDefault user minter) s'.account := by
  simp only [RemittanceNft.recordDefault,bind_eq_ok,Unique.exists_iff] at h
  obtain ⟨-,h⟩ := h
  split at h
  · cases h
    exact .kept _ rfl
  · next ha =>
    simp only [eq_ok] at h
    obtain ⟨_,-,h⟩ := h
    split at h
    · cases h
      rw [account_burnInternal,account_markSeized]
      exact .burned _ rfl user fun hn => ha (hasActiveNft_eq_false.mpr hn)
    · cases h
      exact .of_account_eq rfl (account_markSeized user _)

lemma move_burn (h : s.burn env user minter = .ok s') :
    Move s.account (.burn user minter) s'.account := by
  simp only [RemittanceNft.burn,eq_ok] at h
  obtain ⟨-,ha,rfl⟩ := h
  rw [account_burnInternal]
  refine .burned _ rfl user fun hn => ?_
  rw [hasActiveNft_eq_false.mpr hn] at ha
  cases ha

lemma move_transfer {src dst} (h : s.transfer env src dst minter = .ok s') :
    Move s.account (.transfer src dst minter) s'.account := by
  simp only [RemittanceNft.transfer,eq_ok,Prod.exists] at h
  obtain ⟨hn,-,-,-,_,t,hr,hf,rfl⟩ := h
  obtain ⟨hs,hk⟩ := requireMetadata_eq_ok hr
  rw [← hk] at hs ⊢
  have hh : ((t.scoreHistory.lookup src).or (t.scoreHistory.lookup dst)).getD [] =
      (t.account src).history ∨ (t.account src).history = [] ∧
        ((t.scoreHistory.lookup src).or (t.scoreHistory.lookup dst)).getD [] =
          (t.account dst).history := by
    cases hsrc : t.scoreHistory.lookup src with
    | none => exact .inr ⟨by simp [account,hsrc],rfl⟩
    | some => exact .inl (by simp [account,hsrc])
  have hd : (t.account dst).score = none := hasActiveNft_eq_false.mp hf
  convert Move.moved src dst minter hn (by rw [hs]; exact some_ne_none _) hd _ hh using 1
  funext v
  obtain rfl | hsrc := eq_or_ne v src
  · simp [account,publish,lookup_moveEntry hn]
  obtain rfl | hv := eq_or_ne v dst
  · have hsc : t.scores.lookup v = none := by
      rw [account,or_eq_none_iff] at hd
      exact hd.2
    rw [hs]
    simp [account,publish,lookup_moveEntry hn,hsrc,hsc]
  · simp [account,publish,lookup_moveEntry hn,hsrc,hv]

lemma move_of_ok {c : NftCall} (h : c.exec env s = .ok s') : Move s.account c s'.account := by
  cases c with
  | initializeNft =>
    simp only [exec,RemittanceNft.initializeNft,eq_ok] at h
    obtain ⟨-,rfl⟩ := h
    exact .kept _ rfl
  | migrate =>
    simp only [exec,RemittanceNft.migrate,eq_ok] at h
    obtain ⟨-,rfl⟩ := h
    exact .kept _ rfl
  | authorizeMinter =>
    simp only [exec,RemittanceNft.authorizeMinter,bind_eq_ok,Unique.exists_iff] at h
    obtain ⟨-,h⟩ := h
    split at h
    · cases h
      exact .kept _ rfl
    simp only [eq_ok] at h
    obtain ⟨ms,-,-,rfl⟩ := h
    exact .kept _ rfl
  | revokeMinter =>
    simp only [exec,RemittanceNft.revokeMinter,eq_ok] at h
    obtain ⟨-,ms,-,rfl⟩ := h
    exact .kept _ rfl
  | mint => exact move_mint h
  | adminRemint => exact move_adminRemint h
  | approveRemint => exact move_approveRemint h
  | getMetadata user | getMetadataUri user | getScore user =>
    cases h
    exact .of_account_eq rfl (account_getOrMigrateMetadata user s)
  | getScoreHistory =>
    simp only [exec,eq_ok,Prod.exists] at h
    obtain ⟨_,t,hr,rfl⟩ := h
    exact move_getScoreHistory hr
  | updateMetadataUri =>
    simp only [exec,RemittanceNft.updateMetadataUri,eq_ok,Prod.exists] at h
    obtain ⟨-,-,m,t,hr,rfl⟩ := h
    exact .of_account_eq rfl (account_setMetadata_same hr rfl)
  | updateHistoryHash =>
    simp only [exec,RemittanceNft.updateHistoryHash,eq_ok,Prod.exists] at h
    obtain ⟨-,-,m,t,hr,-,rfl⟩ := h
    exact .of_account_eq rfl (account_setMetadata_same hr rfl)
  | setMinRepaymentAmount =>
    simp only [exec,RemittanceNft.setMinRepaymentAmount,eq_ok] at h
    obtain ⟨-,-,rfl⟩ := h
    exact .kept _ rfl
  | updateScore => exact move_updateScore h
  | decreaseScore => exact move_decreaseScore h
  | applyScoreDelta => exact move_applyScoreDelta h
  | setDefaultBurnThreshold =>
    simp only [exec,RemittanceNft.setDefaultBurnThreshold,eq_ok] at h
    obtain ⟨-,-,-,rfl⟩ := h
    exact .kept _ rfl
  | seizeCollateral user =>
    simp only [exec,RemittanceNft.seizeCollateral,eq_ok] at h
    obtain ⟨-,-,-,rfl⟩ := h
    exact .of_account_eq rfl (account_markSeized user s)
  | recordDefault => exact move_recordDefault h
  | burn => exact move_burn h
  | transfer => exact move_transfer h
  | pause | unpause =>
    simp only [exec,RemittanceNft.pause,RemittanceNft.unpause,setPaused,eq_ok] at h
    obtain ⟨-,rfl⟩ := h
    exact .kept _ rfl
  | proposeAdmin =>
    simp only [exec,RemittanceNft.proposeAdmin,eq_ok] at h
    obtain ⟨cur,-,-,rfl⟩ := h
    exact .kept _ rfl
  | acceptAdmin =>
    simp only [exec,RemittanceNft.acceptAdmin,eq_ok] at h
    obtain ⟨_,-,_,-,-,rfl⟩ := h
    exact .kept _ rfl
  | setAdmin =>
    simp only [exec,RemittanceNft.setAdmin,eq_ok] at h
    obtain ⟨cur,-,-,rfl⟩ := h
    exact .kept _ rfl

end NftCall

end DukaPay
