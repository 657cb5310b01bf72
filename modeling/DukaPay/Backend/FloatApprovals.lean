import DukaPay.Backend.FloatTransfers

/-! The statement that stores the outcome of an execution is refused. So a transfer never gets beyond
its execution, and the approval that has led there is never counted. -/
namespace DukaPay.Backend.FloatTransfers
open Contractlib Discipline

inductive Call
  | approve (input : ApproveTransferInput)
  | reject (input : RejectTransferInput)

def Call.transferId : Call → String
  | approve input => input.transferId
  | reject input => input.transferId

variable {κ : Type}

def Call.program [DecidableEq κ] (vault : Bool) (k : κ) : Call → Program κ Unit
  | approve input => do
    let _ ← approveTransfer vault k input
  | reject input => do
    let _ ← rejectTransfer k input

def callPool [DecidableEq κ] (vault : Bool) (calls : κ → Call) (db : Db κ) :
    Pool κ Failure Statement Answer (Db κ) Unit :=
  ⟨fun k => (calls k).program vault k,db⟩

def Ended (id : String) (status : Status) (db : Db κ) : Prop :=
  status ≠ .pendingApproval ∧ ∃ t, db.transfer? id = some t ∧ t.status = status

/-- No approval is stored: its insert is lost, or the approver has approved before. -/
def Unapproved (_ : κ) (db : Db κ) : Statement → Answer → Prop
  | .insertApproval approval,i => i.fault = .lost ∨ db.Approved approval
  | _,_ => True

instance (k : κ) (db : Db κ) (c : Statement) (i : Answer) : Decidable (Unapproved k db c i) :=
  match c with
  | .insertApproval _ => inferInstanceAs (Decidable (_ ∨ _))
  | .selectLimits | .selectDaily | .selectWeekly | .insertTransfer | .selectTransfer
  | .selectApproval | .audit | .build | .updateTransfer | .rejectTransfer | .selectApprovals =>
    .isTrue trivial

section
variable (id : String)

structure Counted (db : Db κ) : Prop where
  executions : db.executions = []
  approvals : ∀ t, db.transfer? id = some t → (db.approvalsOf id).length = t.approvalCount

/-- A call can only turn a pending transfer into a rejected one. -/
def Moves (s s' : Status) : Prop := s' = s ∨ s = .pendingApproval ∧ s' = .rejected

lemma Moves.trans {s s' s''} (h : Moves s s') (h' : Moves s' s'') : Moves s s'' := by
  rcases h' with rfl | ⟨rfl,rfl⟩
  · exact h
  · rcases h with rfl | ⟨_,hr⟩
    · exact .inr ⟨rfl,rfl⟩
    · cases hr

def StatusMoves (db db' : Db κ) : Prop :=
  ∀ t, db.transfer? id = some t → ∃ t', db'.transfer? id = some t' ∧ Moves t.status t'.status

variable {id} in
lemma StatusMoves.trans {db db' db'' : Db κ} (h : StatusMoves id db db')
    (h' : StatusMoves id db' db'') : StatusMoves id db db'' := by
  intro t ht
  obtain ⟨t1,ht1,hm1⟩ := h t ht
  obtain ⟨t2,ht2,hm2⟩ := h' t1 ht1
  exact ⟨t2,ht2,hm1.trans hm2⟩

lemma statusMoves_of_eq {db db' : Db κ} (h : db'.transfers = db.transfers) :
    StatusMoves id db db' := by
  intro t ht
  refine ⟨t,?_,.inl rfl⟩
  rw [Db.transfer?,h]
  exact ht

/-- The rules of the calls; if they are `strict`, then no approval is stored. -/
def calling (strict : Prop) : Discipline κ Statement Answer (Db κ) where
  inv db := strict → Counted id db
  guar := StatusMoves id
  rely _ := StatusMoves id
  permits k db c i := strict → Unapproved k db c i
  guar_refl _ := statusMoves_of_eq id rfl
  guar_trans := StatusMoves.trans
  rely_refl _ _ := statusMoves_of_eq id rfl
  rely_trans := StatusMoves.trans

def Open (db : Db κ) : Prop :=
  ∃ t, db.transfer? id = some t ∧ Moves .pendingApproval t.status

variable {id} {strict : Prop} {k : κ} {db db' : Db κ} {t : Transfer}

lemma open_stable : (calling id strict).Stable k (Open id) := by
  rintro db db' hr ⟨t,ht,hm⟩
  obtain ⟨t',ht',hm'⟩ := hr t ht
  exact ⟨t',ht',hm.trans hm'⟩

lemma calling_keeps (hg : StatusMoves id db db') (hc : strict → Counted id db') :
    (calling id strict).Keeps k db db' := ⟨hc,hg,fun _ _ => hg⟩

lemma calling_keeps_self (h : (calling id strict).inv db) : (calling id strict).Keeps k db db :=
  calling_keeps (statusMoves_of_eq id rfl) h

lemma transfer?_updateTransfer (ht : db.transfer? id = some t) {f} (hf : ∀ t, (f t).id = t.id) :
    (db.updateTransfer id f).transfer? id = some (f t) :=
  (selectRow_updateRow hf).trans (congrArg (Option.map f) ht)

lemma calling_keeps_reject (h : (calling id strict).inv db) (ho : Open id db) :
    (calling id strict).Keeps k db
      (db.updateTransfer id fun t => { t with status := .rejected }) := by
  obtain ⟨t,ht,hm⟩ := ho
  have hu : (db.updateTransfer id fun t => { t with status := .rejected }).transfer? id =
      some { t with status := .rejected } := transfer?_updateTransfer ht fun _ => rfl
  refine calling_keeps (fun t' ht' => ⟨_,hu,?_⟩) fun hs => ⟨(h hs).executions,fun t' ht' => ?_⟩
  · cases ht.symm.trans ht'
    rcases hm with hp | ⟨_,hr⟩
    · exact .inr ⟨hp,rfl⟩
    · exact .inl hr.symm
  · cases hu.symm.trans ht'
    exact (h hs).approvals t ht

/-! ### The statements of a call -/

lemma safe_read {α : Type} {c} {g : Db κ → α} :
    (calling id strict).Safe k (sql c fun _ db => (.ok (g db),db)) db :=
  ensures_faulty (fun _ _ => trivial) fun _ _ hi _ _ =>
    ⟨calling_keeps_self hi,fun _ _ _ _ _ => trivial⟩

lemma safe_logAudit : (calling id strict).Safe k (logAudit : Program κ Unit) db :=
  safe_statement fun _ _ hi _ => calling_keeps_self hi

lemma safe_pure {α : Type} (a : α) : (calling id strict).Safe k (pure a : Program κ α) db :=
  ensures_pure fun _ _ _ => trivial

lemma safe_throw {α : Type} (e) : (calling id strict).Safe k (throw e : Program κ α) db :=
  ensures_throw fun _ _ _ => trivial

/-- Under strict rules the insert does not return. -/
lemma ensures_insertApproval (apv : Approval) :
    (calling id strict).Ensures k (fun _ _ => ¬ strict) (fun _ _ => True)
      (insertApproval apv : Program κ Unit) db := by
  refine ensures_statement fun db1 _ hi i hp => ?_
  by_cases ha : db1.Approved apv
  · simp only [if_pos ha]
    cases i.fault <;>
      exact ⟨calling_keeps_self hi,fun _ _ _ => ⟨fun _ h => (by cases h),fun _ _ => trivial⟩⟩
  · simp only [if_neg ha]
    have hl : strict → i.fault = .lost := fun hs => (hp hs).resolve_right ha
    have hk : ¬ strict → (calling id strict).Keeps k db1
        { db1 with approvals := db1.approvals ++ [apv] } :=
      fun hn => calling_keeps (statusMoves_of_eq id rfl) fun hs => absurd hs hn
    cases hf : i.fault with
    | lost =>
      exact ⟨calling_keeps_self hi,fun _ _ _ => ⟨fun _ h => (by cases h),fun _ _ => trivial⟩⟩
    | none =>
      have hn : ¬ strict := fun hs => by cases hf.symm.trans (hl hs)
      exact ⟨hk hn,fun _ _ _ => ⟨fun _ _ => hn,fun _ _ => trivial⟩⟩
    | late =>
      have hn : ¬ strict := fun hs => by cases hf.symm.trans (hl hs)
      exact ⟨hk hn,fun _ _ _ => ⟨fun _ h => (by cases h),fun _ _ => trivial⟩⟩

lemma executeStatement_refused : ¬ executeStatement.Accepted := by decide

/-- **The execution**: it builds the transaction, and its outcome is never stored. -/
lemma safe_executeTransfer (vault) (hn : ¬ strict) (n) :
    (calling id strict).Safe k (executeTransfer vault k id n) db := by
  have hb : (calling id strict).Safe k (build vault k) db :=
    safe_statement fun _ _ _ _ =>
      calling_keeps (statusMoves_of_eq id rfl) fun hs => absurd hs hn
  refine safe_andThen hb fun built db => ?_
  refine ensures_bind (ensures_faulty (fun _ _ => trivial) fun db _ hi _ _ => ?_)
  rw [Sql.Statement.answer_refused executeStatement_refused]
  exact ⟨calling_keeps_self hi,fun _ _ _ _ hr => (by cases hr)⟩

lemma safe_countApproval (hn : ¬ strict) (n) :
    (calling id strict).Safe k (countApproval id n : Program κ ApproveResult) db := by
  have hu : (calling id strict).Safe k (updateTransfer countStatement id fun t =>
      { t with approvalCount := n } : Program κ (Option Transfer)) db := by
    refine ensures_faulty (fun _ _ => trivial) fun db _ hi _ _ => ⟨?_,fun _ _ _ _ _ => trivial⟩
    rw [Sql.Statement.answer]
    split
    · exact calling_keeps (fun t ht => ⟨{ t with approvalCount := n },
        transfer?_updateTransfer ht fun _ => rfl,.inl rfl⟩) fun hs => absurd hs hn
    · exact calling_keeps_self hi
  exact safe_andThen hu fun _ _ => safe_andThen safe_read fun _ _ => safe_pure _

lemma safe_recordApproval (vault) {apv : Approval} (hd : apv.transferId = id) :
    (calling id strict).Safe k (recordApproval vault k t apv) db := by
  rw [recordApproval,hd]
  refine ensures_bind ((ensures_insertApproval apv).mono (fun _ db _ hn => ?_) fun _ _ _ h => h)
  refine safe_andThen safe_logAudit fun _ db => ?_
  split
  · exact safe_executeTransfer vault hn _
  · exact safe_countApproval hn _

lemma safe_updateRejected (h : Open id db) :
    (calling id strict).Safe k (updateRejected id) db :=
  ensures_faulty (fun _ _ => trivial) fun _ hr hi _ _ =>
    ⟨calling_keeps_reject hi (open_stable _ _ hr h),fun _ _ _ _ _ => trivial⟩

variable [DecidableEq κ]

lemma ensures_selectTransfer : (calling id strict).Ensures k
    (fun row db => ∀ t, row = some t → t.status = .pendingApproval → Open id db)
    (fun _ _ => True) (selectTransfer k id) db := by
  refine ensures_faulty (fun _ _ => trivial) fun db1 _ hi _ _ =>
    ⟨calling_keeps (statusMoves_of_eq id rfl) fun hs => ⟨(hi hs).executions,(hi hs).approvals⟩,
      fun db2 hr _ row ho t ht hp => ?_⟩
  cases ho
  exact open_stable _ db2 hr ⟨t,ht,.inl hp⟩

lemma safe_approveTransfer (vault) {inp : ApproveTransferInput} (hd : inp.transferId = id) :
    (calling id strict).Safe k (approveTransfer vault k inp) db := by
  rw [approveTransfer,hd]
  refine safe_andThen (ensures_selectTransfer.mono (fun _ _ _ _ => trivial) fun _ _ _ h => h)
    fun row db => ?_
  cases row with
  | none => exact safe_throw _
  | some t =>
    dsimp only
    split
    · exact safe_throw _
    cases approverRole t inp with
    | none => exact safe_throw _
    | some =>
      refine safe_andThen safe_read fun sto db => ?_
      cases sto with
      | true => exact safe_throw _
      | false => exact safe_recordApproval vault rfl

lemma safe_rejectTransfer {inp : RejectTransferInput} (hd : inp.transferId = id) :
    (calling id strict).Safe k (rejectTransfer k inp) db := by
  rw [rejectTransfer,hd]
  refine ensures_bind (ensures_selectTransfer.mono (fun row db _ ho => ?_) fun _ _ _ h => h)
  cases row with
  | none => exact safe_throw _
  | some t =>
    dsimp only
    split
    · exact safe_throw _
    next hp =>
    split
    · exact safe_throw _
    refine safe_andThen (safe_updateRejected (ho t rfl (not_not.mp hp))) fun _ _ => ?_
    exact safe_andThen safe_logAudit fun _ _ => safe_pure _

lemma safe_program (vault) (call : Call) (hd : call.transferId = id) :
    (calling id strict).Safe k (call.program vault k) db := by
  cases call with
  | approve => exact safe_andThen (safe_approveTransfer vault hd) fun _ _ => safe_pure _
  | reject => exact safe_andThen (safe_rejectTransfer hd) fun _ _ => safe_pure _

end

variable [DecidableEq κ]

/-- The calls on a transfer, in any order of their statements and whatever fails. A final status
stays; and if no approval is stored, then the transfer is never executed twice, and its count is
that of the stored approvals. -/
theorem executes_at_most_once (vault : Bool) (calls : κ → Call) (id : String)
    (hcalls : ∀ k, (calls k).transferId = id) (db : Db κ) (hexecutions : db.executions = [])
    (hcounted : ∀ t, db.transfer? id = some t → (db.approvalsOf id).length = t.approvalCount)
    (turns turns' : List (Turn κ Answer Nat)) :
    let before := ((callPool vault calls db).run pass turns).state
    let after := ((callPool vault calls db).run pass (turns ++ turns')).state
    (∀ status, Ended id status before → Ended id status after) ∧
      (Pool.Legal pass Unapproved (fun _ _ => True) (turns ++ turns') (callPool vault calls db) →
        after.executions.length ≤ 1 ∧ ∀ t, after.transfer? id = some t →
          (after.approvalsOf id).length = t.approvalCount) := by
  have hu : ∀ strict, (calling id strict).Undisturbed (pass (κ := κ)) (fun _ _ => True) :=
    fun _ _ _ hi _ => ⟨fun hs => ⟨(hi hs).executions,(hi hs).approvals⟩,
      statusMoves_of_eq id rfl,fun _ => statusMoves_of_eq id rfl⟩
  have hs : ∀ strict, (calling id strict).Obeyed (fun _ _ _ => True) (fun _ _ _ => True)
      (callPool vault calls db) :=
    fun _ => ⟨fun _ => ⟨hexecutions,hcounted⟩,fun k => safe_program vault (calls k) (hcalls k)⟩
  refine ⟨fun status he => ?_,fun hl => ?_⟩
  · have hl : ∀ turns (c : Pool κ Failure Statement Answer (Db κ) Unit), Pool.Legal pass
        (calling id False).permits (fun _ _ => True) turns c :=
      Pool.legal_of_forall (fun _ _ _ _ => False.elim) fun _ _ => trivial
    obtain ⟨-,hb⟩ := (hs False).run (hu False) (hl turns _)
    obtain ⟨hg,-⟩ := hb.run (hu False) (hl turns' _)
    rw [← Pool.run_append] at hg
    obtain ⟨hp,t,ht,rfl⟩ := he
    obtain ⟨t',ht',hm⟩ := hg t ht
    exact ⟨hp,t',ht',hm.resolve_right fun h => hp h.1⟩
  · have hl' : Pool.Legal pass (calling (κ := κ) id True).permits (fun _ _ => True)
        (turns ++ turns') (callPool vault calls db) :=
      hl.mono fun _ _ _ _ h _ => h
    have hc := ((hs True).run (hu True) hl').2.1 trivial
    rw [hc.executions]
    exact ⟨Nat.zero_le 1,hc.approvals⟩

def initiated : Db Bool where
  transfers := [⟨"ft_1","GSOURCE","GTARGET",100,none,.pendingApproval,2,1,"GSOURCE",0⟩]
  approvals := [⟨"ft_1","GSOURCE",.initiator⟩]
  limits := []
  now := 0
  seen _ := []
  executions := []

def fine : Answer := ⟨.none,"",.ok ""⟩

/-- The recipient rejects the transfer while an approval of the administrator is lost. -/
def rejectedAtOnce : Bool → Call
  | false => .approve ⟨"ft_1","GADMIN",some "admin"⟩
  | true => .reject ⟨"ft_1","GTARGET",none⟩

theorem executes_at_most_once_rejected :
    let turns : List (Turn Bool Answer Nat) := List.replicate 2 (.step false fine) ++
      List.replicate 2 (.step true fine)
    let turns' : List (Turn Bool Answer Nat) := [.step false ⟨.lost,"",.ok ""⟩,.step true fine]
    let after := ((callPool false rejectedAtOnce initiated).run pass (turns ++ turns')).state
    Ended "ft_1" .rejected after ∧ after.executions.length ≤ 1 ∧
      ∀ t, after.transfer? "ft_1" = some t →
        (after.approvalsOf "ft_1").length = t.approvalCount := by
  intro turns turns' after
  obtain ⟨he,hc⟩ := executes_at_most_once false rejectedAtOnce "ft_1" (by decide) initiated rfl
    (by intro t ht; cases ht; decide) turns turns'
  exact ⟨he .rejected ⟨Status.noConfusion,_,rfl,rfl⟩,hc (by decide +kernel)⟩

def approvers : Bool → Call
  | false => .approve ⟨"ft_1","GTARGET",none⟩
  | true => .approve ⟨"ft_1","GADMIN",some "admin"⟩

/-- **Two approvals, one after the other**: both execute the transfer, which stays pending, and
neither is counted. -/
theorem approvals_uncounted :
    let after := ((callPool false approvers initiated).run pass
      (List.replicate 6 (.step false fine) ++ List.replicate 6 (.step true fine))).state
    after.executions.length = 2 ∧ (after.approvalsOf "ft_1").length = 3 ∧
      (after.transfer? "ft_1").map (fun t => (t.status,t.approvalCount)) =
        some (.pendingApproval,1) := by
  decide +kernel

end DukaPay.Backend.FloatTransfers
