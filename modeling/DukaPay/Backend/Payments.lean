import DukaPay.Backend.Submissions

/-! A remittance is marked failed on every error but one, also on errors that say nothing about the
transaction. -/
namespace DukaPay.Backend.Submissions
open Contractlib Function

section
variable {κ : Type} [DecidableEq κ] (sdk : Sdk) (calls : κ → Request)

def Request.hash (sdk : Sdk) (request : Request) : String := sdk.hash request.signedXdr

def Unpaid (state : TxState) : Prop := state = .unknown ∨ state = .dropped

variable (w : World κ)

def FailedUnpaid : Prop :=
  ∀ id row k, w.rows id = some row → row.status = .failed → w.owner id = some k →
    Unpaid (w.ledger ((calls k).hash sdk))

def DistinctHashes : Prop :=
  ∀ id id' row row' hash, w.rows id = some row → w.rows id' = some row' →
    row.status = .completed → row'.status = .completed →
    row.transactionHash = some hash → row'.transactionHash = some hash → id = id'

def GivenUp (hash : String) : Prop :=
  ∃ k, (calls k).hash sdk = hash ∧ ((∃ message, w.phase k = .failing message) ∨
    ∃ id row, w.rows id = some row ∧ row.status = .failed ∧ w.owner id = some k)

def Honest : Action κ → Prop
  | .send k accepts reply =>
    (afterSend reply ≠ .submitted → accepts = false ∧ Unpaid (w.ledger ((calls k).hash sdk))) ∧
      (accepts = true → ¬ GivenUp sdk calls w ((calls k).hash sdk))
  | .poll k none => Unpaid (w.ledger ((calls k).hash sdk))
  | _ => True

def Separate : Action κ → Prop
  | .claim k _ => ∀ id k', w.owner id = some k' → (calls k').hash sdk = (calls k).hash sdk →
      id = (calls k).id
  | _ => True

variable {sdk calls} {w : World κ}

lemma failing_of_setPhase {j k ph message} (hp : ∀ message, ph ≠ .failing message)
    (h : (w.setPhase j ph).phase k = .failing message) : w.phase k = .failing message := by
  obtain rfl | hkj := eq_or_ne k j
  · rw [phase_setPhase_self] at h
    exact absurd h (hp message)
  · rwa [phase_setPhase_of_ne hkj] at h

variable {action : Action κ} {w' : World κ}

lemma failing_move (hm : Move sdk calls w action w') (hh : Honest sdk calls w action)
    {k msg} (h : w'.phase k = .failing msg) :
    w.phase k = .failing msg ∨ Unpaid (w'.ledger ((calls k).hash sdk)) := by
  cases hm with
  | idle => exact .inl h
  | ended => exact .inl (failing_of_setPhase (by simp) h)
  | created => exact .inl h
  | checked => exact .inl (failing_of_setPhase (by simp) h)
  | claimed j fault next w'' ph unf upd =>
    obtain ⟨row,-,-,rfl⟩ := updateRemittanceStatus_eq_some upd
    exact .inl (failing_of_setPhase unf h)
  | sent j =>
    obtain rfl | hkj := eq_or_ne k j
    · rw [send,phase_setPhase_self] at h
      obtain ⟨ha,hu⟩ := hh.1 (by rw [h]; exact fun h => by cases h)
      rw [send,ha]
      exact .inr hu
    · exact .inl (by rwa [send,phase_setPhase_of_ne hkj] at h)
  | polled j rp ph legal =>
    obtain rfl | hkj := eq_or_ne k j
    · rw [phase_setPhase_self] at h
      rcases rp with _ | _ | _ | _
      · exact .inr hh
      · cases h
      · exact .inr (.inr (of_decide_eq_true legal))
      · cases h
    · exact .inl (by rwa [phase_setPhase_of_ne hkj] at h)
  | failed j rsn w'' ph upd =>
    obtain ⟨row,-,-,rfl⟩ := updateRemittanceStatus_eq_some upd
    exact .inl (failing_of_setPhase (by simp) h)
  | completed j w'' ph upd =>
    obtain ⟨row,-,-,rfl⟩ := updateRemittanceStatus_eq_some upd
    exact .inl (failing_of_setPhase (by simp) h)
  | settled => exact .inl h

lemma unpaid_move (hm : Move sdk calls w action w') (hh : Honest sdk calls w action) {hash}
    (hg : GivenUp sdk calls w hash) (h : Unpaid (w.ledger hash)) : Unpaid (w'.ledger hash) := by
  cases hm with
  | idle => exact h
  | ended => exact h
  | created => exact h
  | checked => exact h
  | claimed k fault next w'' ph unfailing upd =>
    obtain ⟨row,-,-,rfl⟩ := updateRemittanceStatus_eq_some upd
    exact h
  | sent k acc =>
    show Unpaid ((if acc = true ∧ _ then _ else w.ledger) hash)
    split
    · next ha =>
      have hn : hash ≠ sdk.hash (calls k).signedXdr := by
        rintro rfl
        exact hh.2 ha.1 hg
      rwa [update_of_ne hn]
    · exact h
  | polled => exact h
  | failed k msg w'' ph upd =>
    obtain ⟨row,-,-,rfl⟩ := updateRemittanceStatus_eq_some upd
    exact h
  | completed k w'' ph upd =>
    obtain ⟨row,-,-,rfl⟩ := updateRemittanceStatus_eq_some upd
    exact h
  | settled settled success accepted =>
    have hn : hash ≠ settled := by
      rintro rfl
      rw [accepted] at h
      rcases h with h | h <;> cases h
    show Unpaid (update w.ledger settled _ hash)
    rwa [update_of_ne hn]

lemma failed_move (h : Inv calls w) (hm : Move sdk calls w action w') {id row k}
    (hr : w'.rows id = some row) (hf : row.status = .failed)
    (ho : w'.owner id = some k) :
    (∃ row, w.rows id = some row ∧ row.status = .failed ∧ w.owner id = some k) ∨
    ∃ message, w.phase k = .failing message := by
  cases hm with
  | created j new fresh pend =>
    rcases of_update hr with ⟨-,rfl⟩ | ⟨-,hr⟩
    · cases pend.symm.trans hf
    · exact .inl ⟨row,hr,hf,ho⟩
  | claimed j fault next w'' ph unfailing upd =>
    obtain ⟨old,-,-,rfl⟩ := updateRemittanceStatus_eq_some upd
    rcases of_update hr with ⟨-,rfl⟩ | ⟨hd,hr⟩
    · cases hf
    · exact .inl ⟨row,hr,hf,(update_of_ne hd _ _).symm.trans ho⟩
  | failed j message w'' ph upd =>
    obtain ⟨old,-,-,rfl⟩ := updateRemittanceStatus_eq_some upd
    rcases of_update hr with ⟨rfl,rfl⟩ | ⟨-,hr⟩
    · have hw := (h.owned j (by rw [ph]; trivial)).1
      cases Option.some.inj (hw.symm.trans ho)
      exact .inr ⟨message,ph⟩
    · exact .inl ⟨row,hr,hf,ho⟩
  | completed j w'' ph upd =>
    obtain ⟨old,-,-,rfl⟩ := updateRemittanceStatus_eq_some upd
    rcases of_update hr with ⟨-,rfl⟩ | ⟨-,hr⟩
    · cases hf
    · exact .inl ⟨row,hr,hf,ho⟩
  | _ => exact .inl ⟨row,hr,hf,ho⟩

lemma givenUp_move (h : Inv calls w) (hm : Move sdk calls w action w')
    (hu : ∀ hash, GivenUp sdk calls w hash → Unpaid (w.ledger hash))
    (hh : Honest sdk calls w action) {hash} (hg : GivenUp sdk calls w' hash) :
    Unpaid (w'.ledger hash) := by
  have hk (hb : GivenUp sdk calls w hash) := unpaid_move hm hh hb (hu hash hb)
  obtain ⟨k,rfl,⟨msg,hp⟩ | ⟨id,row,hr,hf,ho⟩⟩ := hg
  · rcases failing_move hm hh hp with hb | hw
    · exact hk ⟨k,rfl,.inl ⟨msg,hb⟩⟩
    · exact hw
  rcases failed_move h hm hr hf ho with ⟨row,hb⟩ | hp
  · exact hk ⟨k,rfl,.inr ⟨id,row,hb⟩⟩
  · exact hk ⟨k,rfl,.inl hp⟩

lemma unpaid_run (h : Inv calls w) (hu : ∀ hash, GivenUp sdk calls w hash → Unpaid (w.ledger hash))
    {acts} (hh : Always (step sdk calls) (Honest sdk calls) w acts) :
    FailedUnpaid sdk calls (run sdk calls w acts) := by
  have hr := Always.foldl (I := fun w => Inv calls w ∧
      ∀ hash, GivenUp sdk calls w hash → Unpaid (w.ledger hash))
    (fun w action hw ha => ⟨(inv_step hw.1 action).1,
      fun hash => givenUp_move hw.1 (move_step action) hw.2 ha⟩) ⟨h,hu⟩ hh
  exact fun id row k hk hf ho => hr.2 _ ⟨k,rfl,.inr ⟨id,row,hk,hf,ho⟩⟩

structure OwnHash (sdk : Sdk) (calls : κ → Request) (w : World κ) : Prop where
  distinct : ∀ id id' k k', w.owner id = some k → w.owner id' = some k' →
    (calls k).hash sdk = (calls k').hash sdk → id = id'
  hashed : ∀ id row hash, w.rows id = some row → row.transactionHash = some hash →
    ∃ k, w.owner id = some k ∧ (calls k).hash sdk = hash

lemma ownHash_move (hi : Inv calls w) (h : OwnHash sdk calls w) (hm : Move sdk calls w action w')
    (hs : Separate sdk calls w action) : OwnHash sdk calls w' := by
  cases hm with
  | created j new fresh pend raw =>
    refine ⟨h.distinct,fun id row hash hr hh => ?_⟩
    rcases of_update hr with ⟨-,rfl⟩ | ⟨-,hr⟩
    · cases raw.symm.trans hh
    · exact h.hashed id row hash hr hh
  | claimed k fault next w'' ph unfailing upd =>
    obtain ⟨old,ho,hp,rfl⟩ := updateRemittanceStatus_eq_some upd
    have hn := hi.unhashed _ old ho (by rw [hp]; exact fun h => by cases h)
    refine ⟨fun id id' j j' hj hj' he => ?_,fun id row hash hr hh => ?_⟩
    · change update w.owner _ _ id = _ at hj
      change update w.owner _ _ id' = _ at hj'
      by_cases hd : id = (calls k).id <;> by_cases hi' : id' = (calls k).id
      · rw [hd,hi']
      · rw [hd,update_self] at hj
        rw [update_of_ne hi'] at hj'
        cases Option.some.inj hj
        exact absurd (hs id' j' hj' he.symm) hi'
      · rw [update_of_ne hd] at hj
        rw [hi',update_self] at hj'
        cases Option.some.inj hj'
        exact absurd (hs id j hj he) hd
      · rw [update_of_ne hd] at hj
        rw [update_of_ne hi'] at hj'
        exact h.distinct id id' j j' hj hj' he
    · rcases of_update hr with ⟨-,rfl⟩ | ⟨hd,hr⟩
      · cases hn.symm.trans hh
      · obtain ⟨j,hj,hjh⟩ := h.hashed id row hash hr hh
        exact ⟨j,(update_of_ne hd _ _).trans hj,hjh⟩
  | failed k msg w'' ph upd =>
    obtain ⟨old,ho,hpr,rfl⟩ := updateRemittanceStatus_eq_some upd
    have hn := hi.unhashed _ old ho (by rw [hpr]; exact fun h => by cases h)
    refine ⟨h.distinct,fun id row hash hr hh => ?_⟩
    rcases of_update hr with ⟨-,rfl⟩ | ⟨-,hr⟩
    · cases hn.symm.trans hh
    · exact h.hashed id row hash hr hh
  | completed k w'' ph upd =>
    obtain ⟨old,-,-,rfl⟩ := updateRemittanceStatus_eq_some upd
    refine ⟨h.distinct,fun id row hash hr hh => ?_⟩
    rcases of_update hr with ⟨rfl,rfl⟩ | ⟨-,hr⟩
    · exact ⟨k,(hi.owned k (by rw [ph]; trivial)).1,Option.some.inj hh⟩
    · exact h.hashed id row hash hr hh
  | _ => exact ⟨h.distinct,h.hashed⟩

lemma distinct_run (hi : Inv calls w) (h : OwnHash sdk calls w) {acts}
    (hs : Always (step sdk calls) (Separate sdk calls) w acts) :
    DistinctHashes (run sdk calls w acts) := by
  have hw := (Always.foldl (I := fun w => Inv calls w ∧ OwnHash sdk calls w)
    (fun w action hw ha => ⟨(inv_step hw.1 action).1,ownHash_move hw.1 hw.2 (move_step action) ha⟩)
    ⟨hi,h⟩ hs).2
  intro id id' row row' hash hr hr' _ _ hh hh'
  obtain ⟨k,hk,hkh⟩ := hw.hashed id row hash hr hh
  obtain ⟨k',hk',hkh'⟩ := hw.hashed id' row' hash hr' hh'
  exact hw.distinct id id' k k' hk hk' (hkh.trans hkh'.symm)

end

/-- **Failed means not paid**, in every run in which errors of the node mean that it does not have
the transaction. -/
theorem failed_unpaid {κ : Type} [DecidableEq κ] (sdk : Sdk) (calls : κ → Request) (w : World κ)
    (h : Initial w) (actions : List (Action κ))
    (hhonest : Always (step sdk calls) (Honest sdk calls) w actions) :
    FailedUnpaid sdk calls (run sdk calls w actions) := by
  refine unpaid_run (inv_initial h) (fun hash hg => ?_) hhonest
  obtain ⟨k,-,⟨_,hp⟩ | ⟨id,_,-,-,ho⟩⟩ := hg
  · cases (h.waiting k).symm.trans hp
  · cases (h.unowned id).symm.trans ho

/-- **Each completed remittance has its own payment**, in every run in which no transaction claims
two remittances. -/
theorem own_payment {κ : Type} [DecidableEq κ] (sdk : Sdk) (calls : κ → Request) (w : World κ)
    (h : Initial w) (actions : List (Action κ))
    (hseparate : Always (step sdk calls) (Separate sdk calls) w actions) :
    DistinctHashes (run sdk calls w actions) := by
  refine distinct_run (inv_initial h) ⟨fun id _ k _ hk => ?_,fun id row hash hr hh => ?_⟩ hseparate
  · cases (h.unowned id).symm.trans hk
  · cases ((h.pending id row hr).2).symm.trans hh

/-- The node rejects the transaction. -/
theorem failed_unpaid_rejected :
    FailedUnpaid plainSdk plainCalls (run plainSdk plainCalls (World.new Bool fun _ => some plainRow)
    [.read true,.claim true .none,.send true false (some .ERROR),.markFailed true .none]) := by
  refine failed_unpaid plainSdk plainCalls _ initial_plain _ ⟨trivial,trivial,⟨fun _ => ?_,?_⟩,
    trivial,trivial⟩
  · exact ⟨rfl,.inl rfl⟩
  · exact fun h => by cases h

/-- **An answer that is lost**: the node has accepted the transaction, and the network applies it
after the remittance was marked failed. -/
theorem failed_but_paid : ¬ ∀ (sdk : Sdk) (calls : Bool → Request) (w : World Bool), Initial w →
    ∀ actions : List (Action Bool), FailedUnpaid sdk calls (run sdk calls w actions) := by
  intro h
  have hu := h plainSdk plainCalls _ initial_plain [.read true,.claim true .none,
    .send true true none,.markFailed true .none,.settle "GA" true] "a" _ true rfl rfl rfl
  rcases hu with hs | hs <;> revert hs <;> decide

/-- Envelopes of one account that differ, in their sequence numbers say. -/
def sequenceSdk : Sdk := { plainSdk with fromXDR _ := some ⟨"GA",[.payment none "GB" "10" "XLM"]⟩ }

def sequenceCalls (first : Bool) : Request :=
  ⟨if first then "a" else "b",if first then "1" else "2","GA"⟩

def bothSubmitted : List (Action Bool) :=
  [.read true,.claim true .none,.send true true (some .PENDING),.read false,.claim false .none,
    .settle "1" true,.poll true (some .SUCCESS),.markCompleted true .none,
    .send false true (some .PENDING),.settle "2" true,.poll false (some .SUCCESS),
    .markCompleted false .none]

/-- Two equal remittances are completed, each with an envelope of its own. -/
theorem own_payment_twice :
    let w := run sequenceSdk sequenceCalls (World.new Bool fun _ => some plainRow) bothSubmitted
    (w.rows "a").map (fun row => (row.status,row.transactionHash)) = some (.completed,some "1") ∧
    (w.rows "b").map (fun row => (row.status,row.transactionHash)) = some (.completed,some "2") ∧
    DistinctHashes w := by
  refine ⟨rfl,rfl,own_payment sequenceSdk sequenceCalls _ initial_plain bothSubmitted ⟨trivial,
    fun id k hk => ?_,trivial,trivial,fun id k hk he => ?_,trivial,trivial,trivial,trivial,trivial,
    trivial,trivial,trivial⟩⟩
  · cases hk
  · -- the other remittance was claimed by the other request
    have ho : update (fun _ => none) "a" (some true) id = some k := hk
    obtain rfl | hn := eq_or_ne id "a"
    · rw [update_self] at ho
      cases ho
      exact absurd he (by decide)
    · rw [update_of_ne hn] at ho
      cases ho

/-- **One payment for two remittances**: the envelope of the first one is submitted again for an
equal one, the node answers that it has it, and both are completed with one hash. -/
theorem payment_shared : ¬ ∀ (sdk : Sdk) (calls : Bool → Request) (w : World Bool), Initial w →
    ∀ actions : List (Action Bool), DistinctHashes (run sdk calls w actions) := by
  intro h
  have hs := h plainSdk plainCalls _ initial_plain [.read true,.claim true .none,
    .send true true (some .PENDING),.settle "GA" true,.poll true (some .SUCCESS),
    .markCompleted true .none,.read false,.claim false .none,.send false false (some .DUPLICATE),
    .poll false (some .SUCCESS),.markCompleted false .none] "a" "b" _ _ "GA" rfl rfl rfl rfl rfl rfl
  revert hs
  decide

end DukaPay.Backend.Submissions
