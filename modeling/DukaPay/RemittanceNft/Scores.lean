import DukaPay.RemittanceNft.Accounts

/-! The history of a score tells how the score came about: its entries link up and the last one
leads to the score that the user has now. -/
namespace DukaPay
open Contractlib

namespace RemittanceNft

structure Account.Faithful (a : Account) : Prop where
  bounded : ∀ score ∈ a.score, score ≤ maxScore
  inactive : a.score = none → a.history = []
  short : a.history.length ≤ maxScoreHistoryEntries
  recorded : ∀ score ∈ a.score, Recorded (·.oldScore) (·.newScore) score a.history

namespace Account.Faithful
open Account (forall_update)
variable {a : Account}

lemma of_empty (hs : ∀ score ∈ a.score, score ≤ maxScore) (hh : a.history = []) : a.Faithful where
  bounded := hs
  inactive := fun _ => hh
  short := by
    rw [hh]
    exact Nat.zero_le _
  recorded := fun _ _ => by
    rw [hh]
    exact Recorded.nil _ _ _

lemma empty (brn approved) : Account.Faithful ⟨none,[],brn,approved⟩ :=
  of_empty (fun _ hs => nomatch hs) rfl

lemma congr {a' : Account} (h : a.Faithful) (hs : a'.score = a.score)
    (hh : a'.history = a.history) : a'.Faithful where
  bounded := hs ▸ h.bounded
  inactive := hs ▸ hh ▸ h.inactive
  short := hh ▸ h.short
  recorded := hs ▸ hh ▸ h.recorded

lemma minted (h : a.Faithful) (hw : a.score = none) (initialScore brn approved)
    : Account.Faithful ⟨some (min initialScore maxScore),a.history,brn,approved⟩ := by
  refine of_empty (fun score hs => ?_) (h.inactive hw)
  cases hs
  exact Nat.min_le_right _ _

lemma rescore (h : a.Faithful) {ent : ScoreHistoryEntry} (ho : a.score = some ent.oldScore)
    (hw : ent.newScore ≤ max ent.oldScore maxScore) : (a.rescore ent).Faithful where
  bounded := by
    intro score hs
    cases hs
    exact hw.trans (max_le (h.bounded _ ho) le_rfl)
  inactive := fun hn => nomatch hn
  short := by
    show (latest (maxScoreHistoryEntries - 1) a.history ++ [ent]).length ≤ maxScoreHistoryEntries
    rw [List.length_append,length_latest]
    exact Nat.add_le_add_right (Nat.min_le_left _ _) 1
  recorded := by
    intro score hs
    cases hs
    exact ((h.recorded _ ho).latest _).push rfl

lemma move {accounts accounts'} {c : NftCall} (h : ∀ user, (accounts user).Faithful)
    (hm : c.Move accounts accounts') : ∀ user, (accounts' user).Faithful := by
  cases hm with
  | kept => exact h
  | trimmed user _ _ =>
    refine forall_update h user ((h user).congr rfl ?_)
    exact latest_of_length_le (h user).short
  | minted user score _ _ _ _ hw _ =>
    exact forall_update h user ((h user).minted hw score _ _)
  | reminted user score _ _ _ hw _ _ =>
    exact forall_update h user ((h user).minted hw score _ _)
  | approved user => exact forall_update h user ((h user).congr rfl rfl)
  | rescored _ _ user ent ho hw => exact forall_update h user ((h user).rescore ho hw)
  | burned _ _ user _ => exact forall_update h user (empty _ _)
  | moved src dst _ _ ha hf history hh =>
    -- without an entry to move, the destination keeps its own history, and that is empty
    have hv : history = (accounts src).history := by
      obtain he | ⟨hs,hd⟩ := hh
      · exact he
      · rw [hd,hs,(h dst).inactive hf]
    refine forall_update (forall_update h dst ?_) src (empty _ _)
    exact (h src).congr rfl hv

end Account.Faithful

lemma faithful_run {scs : Storage Address Nat}
    (hl : ∀ user, ∀ score ∈ scs.lookup user, score ≤ maxScore) (cs)
    (user) : ((nftSystem.run (legacy scs) cs).account user).Faithful := by
  refine Transactional.run_induction (S := nftSystem)
    (I := fun s => ∀ user, (s.account user).Faithful)
    (fun s i s' hs hx => Account.Faithful.move hs (NftCall.move_of_ok hx))
    (fun v => .of_empty ?_ rfl) cs user
  exact hl v

lemma getScore_eq (user) (s : RemittanceNft) :
    (s.getScore user).1 = (s.account user).score.getD 0 := by
  rw [getScore,map_score_getOrMigrateMetadata]

/-- **Faithful histories**: after any calls by anyone, the score of a user is at most 850, and what
is stored as the history of a user is a chain of at most 50 changes that ends at the score. -/
theorem score_history_faithful (scores : Storage Address Nat)
    (hlegacy : ∀ user, ∀ score ∈ scores.lookup user, score ≤ 850) (cs : List NftInvocation)
    (user : Address) :
    let s := nftSystem.run (legacy scores) cs
    (s.getScore user).1 ≤ 850 ∧
      ∀ history, s.scoreHistory.lookup user = some history →
        (history ≠ [] → s.hasActiveNft user = true) ∧
        history.length ≤ 50 ∧
        (history.IsChain fun e e' => e'.oldScore = e.newScore) ∧
        ∀ e ∈ history.getLast?, e.newScore = (s.getScore user).1 := by
  intro s
  have h : (s.account user).Faithful := faithful_run hlegacy cs user
  rw [getScore_eq]
  refine ⟨?_,fun history hl => ?_⟩
  · cases hs : (s.account user).score with
    | none => exact Nat.zero_le _
    | some score => exact h.bounded score hs
  · have hh : (s.account user).history = history := by rw [account,hl,Option.getD_some]
    rw [← hh,hasActiveNft_eq]
    cases hs : (s.account user).score with
    | none =>
      rw [h.inactive hs]
      refine ⟨fun hne => absurd rfl hne,Nat.zero_le _,List.isChain_nil,fun e he => ?_⟩
      cases he
    | some score =>
      have hr := h.recorded score hs
      exact ⟨fun _ => rfl,h.short,hr.chain,hr.last⟩

def scoreRun : List NftInvocation :=
  [⟨.small 1,.initializeNft ⟨3⟩⟩,⟨.small 2,.mint ⟨5⟩ 500 7 "ipfs://5" 9 none⟩,
    ⟨.small 3,.updateScore ⟨5⟩ 20000000000 none⟩,⟨.small 4,.decreaseScore ⟨5⟩ 15 (some ⟨3⟩)⟩]

theorem score_history_faithful_scoreRun :
    let s := nftSystem.run (legacy ∅) scoreRun
    s.scoreHistory.lookup ⟨5⟩ = some [⟨3,500,520,"REPAY"⟩,⟨4,520,505,"DEC"⟩] ∧
      (s.getScore ⟨5⟩).1 = 505 ∧ (s.getScore ⟨5⟩).1 ≤ 850 :=
  ⟨by decide +kernel,by decide +kernel,
    (score_history_faithful ∅ (fun _ _ h => nomatch h) scoreRun ⟨5⟩).1⟩

/-! ### Penalties -/

section
variable {s s' : RemittanceNft} {env : Env} {user : Address} {minter : Option Address}

lemma score_of_decreaseScore {penalty} (h : s.decreaseScore env user penalty minter = .ok s') :
    (s'.account user).score =
    (s.account user).score.map fun score => max (score - penalty) minCreditScore := by
  simp only [decreaseScore,eq_ok] at h
  obtain ⟨-,h⟩ := h
  split at h
  · next hn =>
    cases h
    rw [hasActiveNft_eq_false.mp hn]
    rfl
  simp only [eq_ok,Prod.exists] at h
  obtain ⟨m,s1,hm,h⟩ := h
  obtain ⟨hc,hs1⟩ := requireMetadata_eq_ok hm
  split at h
  · next he =>
    cases h
    rw [hs1,hc,Option.map_some,he]
  cases h
  rw [account_publish,account_setScore hm,Function.update_self,hc]
  rfl

lemma score_of_recordDefault (h : s.recordDefault env user minter = .ok s') :
    (s'.account user).score = none ∨ (s'.account user).score = (s.account user).score := by
  simp only [recordDefault,eq_ok] at h
  obtain ⟨-,h⟩ := h
  split at h
  · cases h
    exact .inr rfl
  simp only [eq_ok] at h
  obtain ⟨_,-,h⟩ := h
  split at h
  · cases h
    rw [account_burnInternal,Function.update_self]
    exact .inl rfl
  cases h
  rw [account_markSeized]
  exact .inr rfl

end

/-- **Penalties**: a penalty does not raise a score exactly when the score is at least 300, and then
the default that the loan manager records next does not either. -/
theorem penalty_lowers_iff (s s' : RemittanceNft) (env : Env) (user : Address) (penalty : Nat)
    (minter : Option Address) (h : s.decreaseScore env user penalty minter = .ok s') :
    ((s'.getScore user).1 ≤ (s.getScore user).1 ↔
      (s.hasActiveNft user = true → 300 ≤ (s.getScore user).1)) ∧
      ∀ s'', s'.recordDefault env user minter = .ok s'' →
      (s.hasActiveNft user = true → 300 ≤ (s.getScore user).1) →
      (s''.getScore user).1 ≤ (s.getScore user).1 := by
  have hl : (s'.getScore user).1 ≤ (s.getScore user).1 ↔
      (s.hasActiveNft user = true → 300 ≤ (s.getScore user).1) := by
    rw [getScore_eq,getScore_eq,score_of_decreaseScore h,hasActiveNft_eq]
    cases (s.account user).score with
    | none => simp
    | some score => simp [minCreditScore]
  refine ⟨hl,fun s'' h' hs => ?_⟩
  rw [getScore_eq]
  obtain hn | hsame := score_of_recordDefault h'
  · rw [hn]
    exact Nat.zero_le _
  · rw [hsame,← getScore_eq]
    exact hl.mpr hs

theorem penalty_lowers_iff_scoreRun : let s := nftSystem.run (legacy ∅) scoreRun
    ∃ s', s.decreaseScore (.small 5) ⟨5⟩ 50 none = .ok s' ∧
      (s'.getScore ⟨5⟩).1 ≤ (s.getScore ⟨5⟩).1 := by
  have hok := eq_ok_of_not_fails (x := (nftSystem.run (legacy ∅) scoreRun).decreaseScore (.small 5)
    ⟨5⟩ 50 none) (by decide +kernel) (legacy ∅)
  exact ⟨_,hok,(penalty_lowers_iff _ _ _ _ _ _ hok).1.mpr (by decide +kernel)⟩

/-- A penalty takes a score of 100 to 300. -/
theorem penalty_raises : let s := nftSystem.run (legacy ∅) [⟨.small 1,.initializeNft ⟨3⟩⟩,
      ⟨.small 2,.mint ⟨5⟩ 100 7 "ipfs://5" 9 none⟩]
    (s.getScore ⟨5⟩).1 = 100 ∧
      (fun s' => (s'.getScore ⟨5⟩).1) <$> s.decreaseScore (.small 5) ⟨5⟩ 50 none = .ok 300 := by
  decide +kernel

end RemittanceNft

end DukaPay
