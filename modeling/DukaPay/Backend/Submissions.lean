import DukaPay.Contractlib.Machine
import DukaPay.Contractlib.Threads

/-! `submitRemittanceTransaction` checks the signed envelope against the remittance, claims the row
with a conditional update, hands the transaction over and records the outcome. -/
namespace DukaPay.Backend.Submissions
open Contractlib Function

inductive Status
  | pending | processing | completed | failed
  deriving DecidableEq

structure Remittance where
  senderId : String
  recipientAddress : String
  amount : String
  fromCurrency : String
  status : Status
  transactionHash : Option String
  errorMessage : Option String

inductive Operation
  | payment (source : Option String) (destination amount asset : String)
  | other

structure Transaction where
  source : String
  operations : List Operation

structure Sdk where
  fromXDR : String → Option Transaction
  hash : String → String
  toFixed : String → String
  getCurrencyAsset : String → String

structure Request where
  id : String
  signedXdr : String
  senderAddress : String

inductive Phase
  | waiting | checked | claimed | submitted | failing (message : String) | confirmed | ended
  deriving DecidableEq

def Phase.Owns : Phase → Prop
  | .claimed | .submitted | .failing _ | .confirmed => True
  | _ => False

inductive TxState
  | unknown | accepted | applied | dropped
  deriving DecidableEq

inductive SendStatus
  | PENDING | DUPLICATE | TRY_AGAIN_LATER | ERROR

inductive PollStatus
  | SUCCESS | FAILED | NOT_FOUND

structure World (κ : Type) where
  rows : String → Option Remittance
  phase : κ → Phase
  ledger : String → TxState
  owner : String → Option κ
  handed : List κ

inductive Action (κ : Type)
  | create (id : String) (row : Remittance)
  | read (k : κ)
  | claim (k : κ) (fault : Fault)
  | send (k : κ) (accepts : Bool) (reply : Option SendStatus)
  | poll (k : κ) (reply : Option PollStatus)
  | markFailed (k : κ) (fault : Fault)
  | markCompleted (k : κ) (fault : Fault)
  | crash (k : κ)
  | settle (hash : String) (success : Bool)

/-! ### The code -/

def mismatch (detail : String) : Except String Unit :=
  .error ("signedXdr does not match remittance: " ++ detail)

def validateSignedXdr (sdk : Sdk) (row : Remittance) (signedXdr : String) : Except String Unit :=
  match sdk.fromXDR signedXdr with
  | none => .error "signedXdr is not a valid transaction envelope"
  | some tx =>
    match tx.operations with
    | [.payment source destination amount asset] =>
      if source.getD tx.source ≠ row.senderId then mismatch "source account"
      else if destination ≠ row.recipientAddress then mismatch "destination"
      else if sdk.toFixed amount ≠ sdk.toFixed row.amount then mismatch "amount"
      else if asset ≠ sdk.getCurrencyAsset row.fromCurrency then mismatch "asset"
      else .ok ()
    | _ => mismatch "expected exactly one payment operation"

def authorize (sdk : Sdk) (request : Request) (row : Remittance) : Except String Unit :=
  if row.senderId ≠ request.senderAddress then .error "You do not have access to this remittance"
  else if row.status ≠ .pending then .error "Remittance has already been submitted"
  else validateSignedXdr sdk row request.signedXdr

section
variable {κ : Type} [DecidableEq κ]

def World.setPhase (w : World κ) (k : κ) (phase : Phase) : World κ :=
  { w with phase := Function.update w.phase k phase }

def updateRemittanceStatus (w : World κ) (id : String) (status : Status)
    (transactionHash errorMessage : Option String) (expectedStatus : Status) : Option (World κ) :=
  match w.rows id with
  | none => none
  | some row =>
    if row.status = expectedStatus then
      let updated := { row with
        status
        transactionHash := transactionHash <|> row.transactionHash
        errorMessage }
      some { w with rows := Function.update w.rows id (some updated) }
    else none

def settleUpdate (w : World κ) (k : κ) (next : Phase) (fault : Fault) (updated : Option (World κ)) :
    World κ :=
  match fault,updated with
  | .none,some w' => w'.setPhase k next
  | .late,some w' => w'.setPhase k .ended
  | _,_ => w.setPhase k .ended

def failure (status : String) : String :=
  "Transaction did not succeed on the Stellar network (" ++ status ++ ")"

def afterSend : Option SendStatus → Phase
  | none => .failing "sendTransaction"
  | some .ERROR => .failing (failure "ERROR")
  | some .TRY_AGAIN_LATER => .failing (failure "TRY_AGAIN_LATER")
  | some _ => .submitted

def afterPoll : Option PollStatus → Phase
  | none => .failing "pollTransaction"
  | some .FAILED => .failing (failure "FAILED")
  | some .NOT_FOUND => .ended
  | some .SUCCESS => .confirmed

def sendLegal (before : TxState) (accepts : Bool) : Option SendStatus → Bool
  | none => true
  | some .PENDING | some .DUPLICATE => accepts || before ≠ .unknown
  | some .ERROR | some .TRY_AGAIN_LATER => !accepts

def pollLegal (state : TxState) : Option PollStatus → Bool
  | some .SUCCESS => state = .applied
  | some .FAILED => state = .dropped
  | _ => true

def send (w : World κ) (k : κ) (hash : String) (accepts : Bool) (reply : Option SendStatus) :
    World κ :=
  let ledger := if accepts ∧ w.ledger hash = .unknown then Function.update w.ledger hash .accepted
    else w.ledger
  { w with ledger, handed := k :: w.handed }.setPhase k (afterSend reply)

def step (sdk : Sdk) (calls : κ → Request) (w : World κ) : Action κ → World κ
  | .create id row =>
    if (w.rows id).isNone then
      let new := { row with status := .pending, transactionHash := none, errorMessage := none }
      { w with rows := Function.update w.rows id (some new) }
    else w
  | .read k =>
    if w.phase k = .waiting then
      match w.rows (calls k).id with
      | none => w.setPhase k .ended
      | some row =>
        match authorize sdk (calls k) row with
        | .ok _ => w.setPhase k .checked
        | .error _ => w.setPhase k .ended
    else w
  | .claim k fault =>
    if w.phase k = .checked then
      settleUpdate w k .claimed fault
        ((updateRemittanceStatus w (calls k).id .processing none none .pending).map fun w' =>
          { w' with owner := Function.update w'.owner (calls k).id (some k) })
    else w
  | .send k accepts reply =>
    let hash := sdk.hash (calls k).signedXdr
    if w.phase k = .claimed ∧ sendLegal (w.ledger hash) accepts reply then
      send w k hash accepts reply
    else w
  | .poll k reply =>
    if w.phase k = .submitted ∧ pollLegal (w.ledger (sdk.hash (calls k).signedXdr)) reply then
      w.setPhase k (afterPoll reply)
    else w
  | .markFailed k fault =>
    match w.phase k with
    | .failing message =>
      settleUpdate w k .ended fault
        (updateRemittanceStatus w (calls k).id .failed none (some message) .processing)
    | _ => w
  | .markCompleted k fault =>
    if w.phase k = .confirmed then
      settleUpdate w k .ended fault (updateRemittanceStatus w (calls k).id .completed
        (some (sdk.hash (calls k).signedXdr)) none .processing)
    else w
  | .crash k => w.setPhase k .ended
  | .settle hash success =>
    if w.ledger hash = .accepted then
      { w with ledger := Function.update w.ledger hash (if success then .applied else .dropped) }
    else w

end

/-! ### One submission -/

section
variable {κ : Type} (sdk : Sdk) (calls : κ → Request)

inductive Edge : Status → Status → Prop
  | claimed : Edge .pending .processing
  | completed : Edge .processing .completed
  | failed : Edge .processing .failed

def Orderly (w w' : World κ) : Prop :=
  ∀ id row, w.rows id = some row → ∃ row', w'.rows id = some row' ∧
    (row'.status = row.status ∨ Edge row.status row'.status) ∧
    ∀ hash, row.transactionHash = some hash → row'.transactionHash = some hash

def HandedOnce (w : World κ) : Prop :=
  w.handed.Nodup ∧ ∀ k ∈ w.handed, ∀ k' ∈ w.handed, (calls k).id = (calls k').id → k = k'

structure Initial (w : World κ) : Prop where
  waiting : ∀ k, w.phase k = .waiting
  unowned : ∀ id, w.owner id = none
  handed : w.handed = []
  pending : ∀ id row, w.rows id = some row → row.status = .pending ∧ row.transactionHash = none

structure Inv (w : World κ) : Prop where
  owned : ∀ k, (w.phase k).Owns → w.owner (calls k).id = some k ∧
    ∃ row, w.rows (calls k).id = some row ∧ row.status = .processing
  unclaimed : ∀ id, (∀ row, w.rows id = some row → row.status = .pending) → w.owner id = none
  handed : ∀ k ∈ w.handed, w.owner (calls k).id = some k ∧
    w.phase k ∉ [Phase.waiting,.checked,.claimed]
  nodup : w.handed.Nodup
  unhashed : ∀ id row, w.rows id = some row → row.status ≠ .completed → row.transactionHash = none

variable {sdk calls} {w : World κ} {k : κ}

lemma inv_initial (h : Initial w) : Inv calls w where
  owned k hk := by
    rw [h.waiting k] at hk
    exact hk.elim
  unclaimed id _ := h.unowned id
  handed := by simp [h.handed]
  nodup := by simp [h.handed]
  unhashed id row hr _ := (h.pending id row hr).2

variable {w' : World κ} {id : String} {row : Remittance} {message : Option String}

lemma of_update {rows j r}
    (h : update rows id (some row) j = some r) : j = id ∧ r = row ∨ j ≠ id ∧ rows j = some r := by
  obtain rfl | hj := eq_or_ne j id
  · rw [update_self] at h
    exact .inl ⟨rfl,(Option.some.inj h).symm⟩
  · rw [update_of_ne hj] at h
    exact .inr ⟨hj,h⟩

lemma orderly_of_rows (h : w'.rows = w.rows) : Orderly w w' :=
  fun _ row hr => ⟨row,h ▸ hr,.inl rfl,fun _ hh => hh⟩

lemma not_handed (h : Inv calls w) (hp : w.phase k ∈ [Phase.waiting,.checked,.claimed]) :
    k ∉ w.handed := fun hk => (h.handed k hk).2 hp

lemma updateRemittanceStatus_eq_some {status exp hash}
    (h : updateRemittanceStatus w id status hash message exp = some w') :
    ∃ row, w.rows id = some row ∧ row.status = exp ∧
    w' = { w with rows := update w.rows id (some { row with
        status := status
        transactionHash := hash <|> row.transactionHash
        errorMessage := message }) } := by
  rw [updateRemittanceStatus] at h
  cases hr : w.rows id with
  | none => simp [hr] at h
  | some row =>
    rw [hr] at h
    dsimp only at h
    split at h
    · next hs => exact ⟨row,rfl,hs,(Option.some.inj h).symm⟩
    · cases h

lemma orderly_update {row'} (hw : w.rows id = some row)
    (hs : w'.rows = update w.rows id (some row'))
    (he : Edge row.status row'.status) (hh : row.transactionHash = none) : Orderly w w' := by
  intro j r hr
  obtain rfl | hj := eq_or_ne j id
  · cases Option.some.inj (hw.symm.trans hr)
    exact ⟨row',by rw [hs,update_self],.inr he,fun hash h => by cases hh.symm.trans h⟩
  · exact ⟨r,by rw [hs,update_of_ne hj,hr],.inl rfl,fun _ h => h⟩

lemma inv_create (h : Inv calls w) (hn : w.rows id = none) (hp : row.status = .pending)
    (hh : row.transactionHash = none) :
    Inv calls { w with rows := update w.rows id (some row) } where
  owned k hk := by
    obtain ⟨ho,r,hr,hs⟩ := h.owned k hk
    have hd : (calls k).id ≠ id := fun he => by cases hn.symm.trans (he ▸ hr)
    exact ⟨ho,r,(update_of_ne hd _ _).trans hr,hs⟩
  unclaimed j hj := h.unclaimed j fun r hr => hj r (by
    have hd : j ≠ id := fun he => by cases hn.symm.trans (he ▸ hr)
    exact (update_of_ne hd _ _).trans hr)
  handed := h.handed
  nodup := h.nodup
  unhashed j r hr hne := by
    rcases of_update hr with ⟨-,rfl⟩ | ⟨-,hr⟩
    · exact hh
    · exact h.unhashed j r hr hne

lemma orderly_create (hn : w.rows id = none) :
    Orderly w { w with rows := update w.rows id (some row) } := by
  intro j r hr
  have hd : j ≠ id := fun he => by cases hn.symm.trans (he ▸ hr)
  exact ⟨r,(update_of_ne hd _ _).trans hr,.inl rfl,fun _ h => h⟩

lemma Inv.handedOnce (h : Inv calls w) : HandedOnce calls w := by
  refine ⟨h.nodup,fun k hk k' hk' hd => ?_⟩
  have ho := (h.handed k hk).1
  rw [hd] at ho
  exact Option.some.inj (ho.symm.trans (h.handed k' hk').1)

variable [DecidableEq κ]
variable (sdk calls) in
def run (w : World κ) (actions : List (Action κ)) : World κ := actions.foldl (step sdk calls) w

@[simp] lemma phase_setPhase_self (phase) : (w.setPhase k phase).phase k = phase := update_self ..

lemma phase_setPhase_of_ne {j} (h : j ≠ k) (ph) : (w.setPhase k ph).phase j = w.phase j :=
  update_of_ne h ..

variable (h : Inv calls w)

include h

lemma inv_setPhase {ph : Phase} (ho : ph.Owns → (w.phase k).Owns)
    (hl : k ∈ w.handed → ph ∉ [Phase.waiting,.checked,.claimed]) : Inv calls (w.setPhase k ph) where
  owned j hj := by
    obtain rfl | hjk := eq_or_ne j k
    · rw [phase_setPhase_self] at hj
      exact h.owned j (ho hj)
    · rw [phase_setPhase_of_ne hjk] at hj
      exact h.owned j hj
  unclaimed := h.unclaimed
  handed := (forall_update_iff w.phase fun j p => j ∈ w.handed →
    w.owner (calls j).id = some j ∧ p ∉ [Phase.waiting,.checked,.claimed]).mpr
    ⟨fun hk => ⟨(h.handed k hk).1,hl hk⟩,fun j _ => h.handed j⟩
  nodup := h.nodup
  unhashed := h.unhashed

lemma inv_ended : Inv calls (w.setPhase k .ended) :=
  inv_setPhase h (fun ho => ho.elim) fun _ => by decide

lemma inv_finish (ho : (w.phase k).Owns) {st hash}
    (he : Edge .processing st) (hn : st ≠ .completed → hash = none)
    (hup : updateRemittanceStatus w (calls k).id st hash message .processing = some w') :
    Inv calls (w'.setPhase k .ended) ∧ Orderly w w' := by
  obtain ⟨how,-⟩ := h.owned k ho
  obtain ⟨row,hrw,hs,rfl⟩ := updateRemittanceStatus_eq_some hup
  have hu := h.unhashed _ row hrw (by rw [hs]; exact fun h => by cases h)
  refine ⟨⟨?_,?_,?_,h.nodup,?_⟩,orderly_update hrw rfl (hs ▸ he) hu⟩
  · intro j hj
    obtain rfl | hjk := eq_or_ne j k
    · rw [phase_setPhase_self] at hj
      exact hj.elim
    rw [phase_setPhase_of_ne hjk] at hj
    obtain ⟨hw,hjr⟩ := h.owned j hj
    -- another request that is past its claim owns another remittance
    have hd : (calls j).id ≠ (calls k).id := fun hq =>
      hjk (Option.some.inj (hw.symm.trans (hq ▸ how)))
    exact ⟨hw,by simpa [World.setPhase,update_of_ne hd] using hjr⟩
  · intro id hp
    by_cases hd : id = (calls k).id
    · subst hd
      have hb := hp _ (update_self _ _ _)
      cases he <;> cases hb
    · exact h.unclaimed id fun r hr =>
        hp r ((update_of_ne hd _ _).trans hr)
  · intro j hj
    refine ⟨(h.handed j hj).1,?_⟩
    obtain rfl | hjk := eq_or_ne j k
    · rw [phase_setPhase_self]
      decide
    · rw [phase_setPhase_of_ne hjk]
      exact (h.handed j hj).2
  · intro id r hr hne
    rcases of_update hr with ⟨-,rfl⟩ | ⟨-,hr⟩
    · show (hash <|> row.transactionHash) = none
      rw [hn hne,hu]
      rfl
    · exact h.unhashed id r hr hne

lemma inv_claim (hh : w.phase k = .checked) (next : Phase)
    (hup : updateRemittanceStatus w (calls k).id .processing none none .pending = some w') :
    let claimed := { w' with owner := update w'.owner (calls k).id (some k) }
    Inv calls (claimed.setPhase k next) ∧ Orderly w claimed := by
  obtain ⟨row,hrw,hs,rfl⟩ := updateRemittanceStatus_eq_some hup
  have hu := h.unhashed _ row hrw (by rw [hs]; exact fun h => by cases h)
  have hf : w.owner (calls k).id = none := h.unclaimed _ fun r hr => by
    cases Option.some.inj (hrw.symm.trans hr)
    exact hs
  have ht : k ∉ w.handed := not_handed h (by rw [hh]; decide)
  -- nobody else is past a claim of this remittance
  have ho (j : κ) (hj : w.owner (calls j).id = some j) : (calls j).id ≠ (calls k).id :=
    fun he => by cases hf.symm.trans (he ▸ hj)
  refine ⟨⟨?_,?_,?_,h.nodup,?_⟩,orderly_update hrw rfl (hs ▸ .claimed) hu⟩
  · intro j hj
    obtain rfl | hjk := eq_or_ne j k
    · exact ⟨update_self _ _ _,_,update_self _ _ _,rfl⟩
    rw [phase_setPhase_of_ne hjk] at hj
    obtain ⟨hw,hjr⟩ := h.owned j hj
    have hd := ho j hw
    exact ⟨(update_of_ne hd _ _).trans hw,by simpa [World.setPhase,update_of_ne hd] using hjr⟩
  · intro id hp
    by_cases hd : id = (calls k).id
    · subst hd
      cases hp _ (update_self _ _ _)
    · refine (update_of_ne hd _ _).trans (h.unclaimed id fun r hr => ?_)
      exact hp r ((update_of_ne hd _ _).trans hr)
  · intro j hj
    have hjk : j ≠ k := fun he => ht (he ▸ hj)
    have hw := (h.handed j hj).1
    refine ⟨(update_of_ne (ho j hw) _ _).trans hw,?_⟩
    rw [phase_setPhase_of_ne hjk]
    exact (h.handed j hj).2
  · intro id r hr hn
    rcases of_update hr with ⟨-,rfl⟩ | ⟨-,hr⟩
    · exact hu
    · exact h.unhashed id r hr hn

lemma inv_send (hp : w.phase k = .claimed) (hash : String) (accepts)
    (rp) : Inv calls (send w k hash accepts rp) := by
  have ho : (w.phase k).Owns := by
    rw [hp]
    trivial
  have hn : k ∉ w.handed := not_handed h (by rw [hp]; decide)
  have hl : afterSend rp ∉ [Phase.waiting,.checked,.claimed] := by
    rcases rp with _ | _ | _ | _ | _ <;> simp [afterSend]
  have hb : Inv calls (w.setPhase k (afterSend rp)) := inv_setPhase h (fun _ => ho) fun _ => hl
  refine ⟨hb.owned,hb.unclaimed,?_,List.nodup_cons.mpr ⟨hn,h.nodup⟩,hb.unhashed⟩
  intro j hj
  rcases List.mem_cons.mp hj with rfl | hj
  · refine ⟨(h.owned j ho).1,?_⟩
    rw [send,phase_setPhase_self]
    exact hl
  · exact hb.handed j hj

omit h

lemma settleUpdate_cases {P : World κ → Prop} {next fault upd} (he : P (w.setPhase k .ended))
    (hd : ∀ w', upd = some w' → ∀ ph, ph = next ∨ ph = .ended →
    P (w'.setPhase k ph)) : P (settleUpdate w k next fault upd) := by
  cases upd with
  | none => cases fault <;> exact he
  | some w' =>
    cases fault with
    | none => exact hd w' rfl next (.inl rfl)
    | lost => exact he
    | late => exact hd w' rfl .ended (.inr rfl)

variable (sdk calls w) in
/-- **What a step does**, and what it takes. -/
inductive Move : Action κ → World κ → Prop
  | idle {action : Action κ} : Move action w
  | ended {action : Action κ} (k : κ) : Move action (w.setPhase k .ended)
  | created {action : Action κ} (id : String) (row : Remittance) (fresh : w.rows id = none)
      (pending : row.status = .pending) (unhashed : row.transactionHash = none) :
      Move action { w with rows := Function.update w.rows id (some row) }
  | checked {action : Action κ} (k : κ) (phase : w.phase k = .waiting) :
      Move action (w.setPhase k .checked)
  | claimed (k : κ) (fault : Fault) (next : Phase) (w' : World κ) (phase : w.phase k = .checked)
      (unfailing : ∀ message, next ≠ .failing message)
      (updated : updateRemittanceStatus w (calls k).id .processing none none .pending = some w') :
      Move (.claim k fault)
        ({ w' with owner := Function.update w'.owner (calls k).id (some k) }.setPhase k next)
  | sent (k : κ) (accepts : Bool) (reply : Option SendStatus) (phase : w.phase k = .claimed) :
      Move (.send k accepts reply)
        (send w k (sdk.hash (calls k).signedXdr) accepts reply)
  | polled (k : κ) (reply : Option PollStatus) (phase : w.phase k = .submitted)
      (legal : pollLegal (w.ledger (sdk.hash (calls k).signedXdr)) reply = true) :
      Move (.poll k reply) (w.setPhase k (afterPoll reply))
  | failed {action : Action κ} (k : κ) (message : String) (w' : World κ)
      (phase : w.phase k = .failing message)
      (updated : updateRemittanceStatus w (calls k).id .failed none (some message) .processing =
        some w') : Move action (w'.setPhase k .ended)
  | completed {action : Action κ} (k : κ) (w' : World κ) (phase : w.phase k = .confirmed)
      (updated : updateRemittanceStatus w (calls k).id .completed
        (some (sdk.hash (calls k).signedXdr)) none .processing = some w') :
      Move action (w'.setPhase k .ended)
  | settled (hash : String) (success : Bool) (accepted : w.ledger hash = .accepted) :
      Move (.settle hash success)
        { w with ledger := Function.update w.ledger hash (if success then .applied else .dropped) }

lemma move_step (act) : Move sdk calls w act (step sdk calls w act) := by
  cases act with
  | create id =>
    rw [step]
    split
    · next hn => exact .created id _ (Option.isNone_iff_eq_none.mp hn) rfl rfl
    · exact .idle
  | read k =>
    rw [step]
    split
    · next hp =>
      split
      · exact .ended k
      split
      · exact .checked k hp
      · exact .ended k
    · exact .idle
  | claim k fault =>
    rw [step]
    split
    · next hp =>
      refine settleUpdate_cases (P := Move sdk calls w _) (.ended k) fun w' hw' ph hx => ?_
      obtain ⟨w'',hu,rfl⟩ := Option.map_eq_some_iff.mp hw'
      exact .claimed k fault ph w'' hp (by rcases hx with rfl | rfl <;> simp) hu
    · exact .idle
  | send k acc rp =>
    simp only [step]
    split
    · next hp => exact .sent k acc rp hp.1
    · exact .idle
  | poll k rp =>
    rw [step]
    split
    · next hp => exact .polled k rp hp.1 hp.2
    · exact .idle
  | markFailed k =>
    simp only [step]
    split
    · next message hp =>
      refine settleUpdate_cases (P := Move sdk calls w _) (.ended k) fun w' hw' ph hx => ?_
      cases (or_self _).mp hx
      exact .failed k message w' hp hw'
    · exact .idle
  | markCompleted k =>
    rw [step]
    split
    · next hp =>
      refine settleUpdate_cases (P := Move sdk calls w _) (.ended k) fun w' hw' ph hx => ?_
      cases (or_self _).mp hx
      exact .completed k w' hp hw'
    · exact .idle
  | crash k => exact .ended k
  | settle hash ok1 =>
    rw [step]
    split
    · next ha => exact .settled hash ok1 ha
    · exact .idle

lemma inv_move (h : Inv calls w) {act} (hm : Move sdk calls w act w') :
    Inv calls w' ∧ Orderly w w' := by
  cases hm with
  | idle => exact ⟨h,orderly_of_rows rfl⟩
  | ended => exact ⟨inv_ended h,orderly_of_rows rfl⟩
  | created id row fresh pend raw =>
    exact ⟨inv_create h fresh pend raw,orderly_create fresh⟩
  | checked k ph =>
    refine ⟨inv_setPhase h (fun ho => ho.elim) fun hk => ?_,orderly_of_rows rfl⟩
    exact absurd hk (not_handed h (by rw [ph]; decide))
  | claimed k fault next w' ph unfailing upd => exact inv_claim h ph next upd
  | sent k accepts rp ph => exact ⟨inv_send h ph _ _ _,orderly_of_rows rfl⟩
  | polled k rp ph =>
    refine ⟨inv_setPhase h (fun _ => by rw [ph]; trivial) fun _ => ?_,orderly_of_rows rfl⟩
    rcases rp with _ | _ | _ | _ <;> simp [afterPoll]
  | failed k message w' ph upd =>
    exact inv_finish h (by rw [ph]; trivial) .failed (fun _ => rfl) upd
  | completed k w' ph upd =>
    exact inv_finish h (by rw [ph]; trivial) .completed (fun hn => absurd rfl hn) upd
  | settled => exact ⟨⟨h.owned,h.unclaimed,h.handed,h.nodup,h.unhashed⟩,orderly_of_rows rfl⟩

lemma inv_step (h : Inv calls w) (act) :
    Inv calls (step sdk calls w act) ∧ Orderly w (step sdk calls w act) :=
  inv_move h (move_step act)

lemma inv_run (h : Inv calls w) (acts) : Inv calls (run sdk calls w acts) := by
  induction acts generalizing w with
  | nil => exact h
  | cons act acts ih => exact ih (inv_step h act).1

end

/-- **One submission per remittance**: however requests interleave and fail, at most one request
hands the transaction of a remittance over, and each step moves the rows along the state machine and
keeps their hashes. -/
theorem one_submission {κ : Type} [DecidableEq κ] (sdk : Sdk) (calls : κ → Request) (w : World κ)
    (h : Initial w) (actions : List (Action κ)) (action : Action κ) :
    HandedOnce calls (run sdk calls w actions) ∧
      Orderly (run sdk calls w actions) (run sdk calls w (actions ++ [action])) := by
  have hn : Inv calls (run sdk calls w actions) := inv_run (inv_initial h) actions
  refine ⟨hn.handedOnce,?_⟩
  rw [run,run,List.foldl_append]
  exact (inv_step hn action).2

def World.new (κ : Type) (rows : String → Option Remittance) : World κ :=
  ⟨rows,fun _ => .waiting,fun _ => .unknown,fun _ => none,[]⟩

lemma initial_new {κ : Type} {rows}
    (h : ∀ id row, rows id = some row → row.status = .pending ∧ row.transactionHash = none) :
    Initial (World.new κ rows) :=
  ⟨fun _ => rfl,fun _ => rfl,rfl,h⟩

def plainSdk : Sdk where
  fromXDR xdr := some ⟨xdr,[.payment none "GB" "10" "XLM"]⟩
  hash xdr := xdr
  toFixed text := text
  getCurrencyAsset currency := currency

def plainRow : Remittance := ⟨"GA","GB","10","XLM",.pending,none,none⟩

def plainCalls (first : Bool) : Request := ⟨if first then "a" else "b","GA","GA"⟩

lemma initial_plain : Initial (World.new Bool fun _ => some plainRow) :=
  initial_new fun _ row hr => by
    cases Option.some.inj hr
    exact ⟨rfl,rfl⟩

/-- Two requests for one remittance that have both passed the checks. -/
theorem one_submission_race :
    HandedOnce (fun _ => plainCalls true) (run plainSdk (fun _ => plainCalls true)
    (World.new Bool fun _ => some plainRow)
    [.read true,.read false,.claim false .none,.claim true .none,.send false true none]) :=
  (one_submission plainSdk (fun _ => plainCalls true) _ initial_plain _ (.crash true)).1

end DukaPay.Backend.Submissions
