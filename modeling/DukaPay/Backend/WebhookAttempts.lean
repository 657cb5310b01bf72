import DukaPay.Backend.Webhooks

/-! The statement with which the processor looks for due deliveries is refused, so that the only post
of an event is that of its dispatch. -/
namespace DukaPay.Backend.Webhooks
open Contractlib Discipline List

inductive Job
  | dispatch (subscriptionId : Nat) (event : Event)
  | tick

def Job.key : Job → Option Key
  | .dispatch subscriptionId event => some (subscriptionId,event.eventId)
  | .tick => none

def Job.program (env : Env) : Job → Program Unit
  | .dispatch subscriptionId event => Webhooks.dispatch env subscriptionId event
  | .tick => Webhooks.tick env

variable {κ : Type}

def webhookPool (env : Env) (jobs : κ → Job) (db : Db) :
    Pool κ Failure Statement Answer Db Unit :=
  ⟨fun k => (jobs k).program env,db⟩

section
variable (q : Key)

/-- The address of the delivery is not refused. -/
def Reachable (_ : κ) (_ : Db) : Statement → Answer → Prop
  | .check post,i => post.key = q → i.check.isOk = true
  | _,_ => True

instance (k : κ) (db : Db) (c : Statement) (i : Answer) : Decidable (Reachable q k db c i) :=
  match c with
  | .check post => inferInstanceAs (Decidable (post.key = q → i.check.isOk = true))
  | .selectSubscription | .selectDue | .refresh | .post _ | .response _ | .insert _ | .update _ =>
    .isTrue trivial

def Db.posted (db : Db) : Nat := db.posts.countP (·.key = q)

structure Bounded (db : Db) : Prop where
  bounded : db.posted q ≤ maxRetryAttempts
  counted : ∀ d ∈ db.deliveries, d.key = q → d.attemptCount = db.posted q
  late : q ∉ db.late

structure Initial (db : Db) : Prop where
  rows : ∀ d ∈ db.deliveries, d.key ≠ q
  posts : db.posts = []
  late : db.late = []

/-- At most one post, and a row only after it. -/
structure Sent (db : Db) : Prop where
  once : db.posted q ≤ 1
  counted : ∀ d ∈ db.deliveries, d.key = q → d.attemptCount = 1 ∧ db.posted q = 1
  late : q ∉ db.late

/-- The thread of the dispatch alone posts the event. -/
def single (first : κ → Prop) : Discipline κ Statement Answer Db where
  inv := Sent q
  guar _ _ := True
  rely k db db' := first k → db'.posted q = db.posted q
  permits := Reachable q
  guar_refl _ := trivial
  guar_trans _ _ := trivial
  rely_refl _ _ _ := rfl
  rely_trans h h' hk := (h' hk).trans (h hk)

variable {q} {first : κ → Prop} {k : κ} {db db' : Db} {env : Env}

lemma Initial.sent (h : Initial q db) : Sent q db := by
  refine ⟨?_,fun d hd hk => absurd hk (h.rows d hd),?_⟩
  · rw [Db.posted,h.posts]
    exact Nat.zero_le 1
  · rw [h.late]
    exact not_mem_nil

lemma Sent.bounded (h : Sent q db) : Bounded q db where
  bounded := h.once.trans (by decide)
  counted d hd hk := (h.counted d hd hk).1.trans (h.counted d hd hk).2.symm
  late := h.late

lemma keeps_of_posted (h : Sent q db') (hp : db'.posted q = db.posted q) :
    (single q first).Keeps k db db' := ⟨h,trivial,fun _ _ _ => hp⟩

lemma keeps_self (h : Sent q db) : (single q first).Keeps k db db := keeps_of_posted h rfl

/-! ### Threads that leave the event alone -/

lemma keeps_post_other (h : Sent q db) {post : Post} (hn : post.key ≠ q) :
    (single q first).Keeps k db (db.post post) := by
  have hp : (db.post post).posted q = db.posted q := countP_cons_of_neg (by simpa using hn)
  refine keeps_of_posted ⟨hp ▸ h.once,hp ▸ h.counted,?_⟩ hp
  simp only [Db.post]
  split
  · rw [mem_cons,not_or]
    exact ⟨hn.symm,h.late⟩
  · exact h.late

lemma keeps_inserted {row : Int → Nat → Delivery} (h : Sent q db)
    (hr : (row db.now db.nextId).key = q →
      (row db.now db.nextId).attemptCount = 1 ∧ db.posted q = 1) :
    (single q first).Keeps k db (db.inserted row) := by
  refine keeps_of_posted ⟨h.once,fun d hd hk => ?_,h.late⟩ rfl
  rcases mem_append.mp hd with hd | hd
  · exact h.counted d hd hk
  · cases mem_singleton.mp hd
    exact hr hk

lemma safe_pure {α : Type} (a : α) : (single q first).Safe k (pure a : Program α) db :=
  ensures_pure fun _ _ _ => trivial

lemma safe_insert_other {key : Key} {row} (hk : ∀ now id, (row now id : Delivery).key ≠ q) :
    (single q first).Safe k (insertDelivery key row) db :=
  ensures_faulty (fun _ _ => trivial) fun _ _ hs _ _ =>
    ⟨keeps_inserted hs fun h => absurd h (hk _ _),fun _ _ _ _ _ => trivial⟩

lemma safe_postWebhook_other {post : Post} (hn : post.key ≠ q) :
    (single q first).Safe k (postWebhook post) db := by
  refine safe_andThen (safe_statement fun _ _ hs _ => keeps_self hs) fun _ _ => ?_
  refine safe_andThen (safe_statement fun _ _ hs _ => keeps_post_other hs hn) fun _ _ => ?_
  exact safe_statement fun _ _ hs _ => keeps_self hs

/-- A tick finds nothing to send: its statement is refused. -/
lemma safe_tick : (single q first).Safe k (tick env) db := by
  have hf : ∀ db, (single q first).Safe k refresh db := fun _ =>
    safe_statement fun _ _ hs _ => keeps_self hs
  have hr : ∀ db, (single q first).Safe k (processRetries env) db := by
    refine fun db => ensures_tryCatch (ensures_bind ?_)
    refine ensures_faulty (fun _ _ => safe_pure ()) fun db _ hs _ _ => ?_
    rw [selectDue_answer]
    exact ⟨keeps_self hs,fun _ _ _ _ hr => (by cases hr)⟩
  exact safe_andThen (hf db) fun _ db => safe_andThen (hr db) fun _ db => hf db

variable {sid : Nat} {event : Event} {payload : Payload}

lemma safe_sendToWebhook_other (hn : (sid,event.eventId) ≠ q) :
    (single q first).Safe k (sendToWebhook sid event payload) db := by
  have hi : ∀ st e db, (single q first).Safe k
      (insertDelivery (sid,event.eventId) (firstFailed sid event payload st e)) db :=
    fun _ _ _ => safe_insert_other fun _ _ => hn
  refine ensures_tryCatch (ensures_bind ((safe_postWebhook_other hn).mono
    (fun st db _ _ => ?_) fun _ db _ _ => hi _ _ db))
  refine Ensures.mono (safe_insert_other fun now id => ?_) (fun _ _ _ h => h)
    fun _ db _ _ => hi _ _ db
  split
  · exact hn
  · exact hn

lemma safe_dispatch {P} (hP : (single q first).Stable k P) (hs : ∀ payload db, P db →
    (single q first).Safe k (sendToWebhook sid event payload) db) (h : P db) :
    (single q first).Safe k (dispatch env sid event) db := by
  rw [dispatch]
  split
  · exact safe_pure ()
  · next payload _ =>
    refine ensures_tryCatch (ensures_bind ((ensures_faulty_stable hP
      (fun _ _ hi hd _ => ⟨keeps_self hi,hd⟩) h).mono (fun hook db _ hd => ?_)
      fun _ _ _ _ => safe_pure ()))
    split
    · exact ensures_pure fun _ _ _ => trivial
    split
    · exact ensures_throw fun _ _ _ => safe_pure ()
    · exact (hs payload db hd).mono (fun _ _ _ h => h) fun _ _ _ _ => safe_pure ()

/-! ### The thread that dispatches the event -/

def Posts (q : Key) (n : Nat) (db : Db) : Prop := db.posted q = n

lemma posts_stable (hf : first k) (n) : (single q first).Stable k (Posts q n) :=
  fun _ _ hr h => (hr hf).trans h

lemma keeps_post_own (h : Sent q db) (hn : Posts q 0 db) (hu : ∀ j, first j → j = k)
    {post : Post} (hk : post.key = q) :
    (single q first).Keeps k db (db.post post) ∧ Posts q 1 (db.post post) := by
  have hp : (db.post post).posted q = 1 := by
    rw [Db.posted,Db.post,countP_cons_of_pos (by simpa using hk)]
    exact congrArg (· + 1) hn
  -- there is no row before the post, so it cannot have arrived
  have hr : ∀ d ∈ db.deliveries, d.key ≠ q := by
    intro d hd hq
    have h1 := (h.counted d hd hq).2
    rw [show db.posted q = 0 from hn] at h1
    cases h1
  have ha : db.arrived post.key = false := by
    rw [Db.arrived,any_eq_false]
    intro d hd hq
    rw [Bool.and_eq_true,decide_eq_true_eq,hk] at hq
    exact hr d hd hq.1
  refine ⟨⟨⟨hp.le,fun d hd hq => absurd hq (hr d hd),?_⟩,trivial,fun j hj hf => ?_⟩,hp⟩
  · rw [Db.post,ha]
    exact h.late
  · exact absurd (hu j hf) hj

lemma leaves_postWebhook_own (hf : first k) (hu : ∀ j, first j → j = k) {post : Post}
    (hk : post.key = q) (h : Posts q 0 db) :
    (single q first).Leaves k (Posts q 1) (Posts q 1) (postWebhook post) db := by
  refine ensures_bind (ensures_statement fun db1 hr hi i ha => ⟨keeps_self hi,?_⟩)
  have h1 := posts_stable hf 0 _ _ hr h
  refine fun db2 hr2 _ => ⟨fun _ _ => ?_,fun e he => ?_⟩
  · refine ensures_bind ((ensures_statement_stable (posts_stable hf 0) (posts_stable hf 1)
      (fun db _ hi hd _ => keeps_post_own hi hd hu hk) (posts_stable hf 0 _ _ hr2 h1)).mono
      (fun _ db _ hd => ?_) fun _ _ _ hd => hd)
    exact ensures_statement_stable (posts_stable hf 1) (posts_stable hf 1)
      (fun _ _ hi hd _ => ⟨keeps_self hi,hd⟩) hd
  · have hc : i.check.isOk = true := ha hk
    rw [show i.check = .error e from he] at hc
    cases hc

lemma leaves_insert_own (hf : first k) {row} (ha : ∀ now id, (row now id : Delivery).attemptCount = 1)
    (h : Posts q 1 db) :
    (single q first).Leaves k (Posts q 1) (Posts q 1) (insertDelivery q row) db :=
  ensures_faulty_stable (posts_stable hf 1)
    (fun _ _ hi hd _ => ⟨keeps_inserted hi fun _ => ⟨ha _ _,hd⟩,hd⟩) h

lemma safe_sendToWebhook_own (hf : first k) (hu : ∀ j, first j → j = k)
    (hk : (sid,event.eventId) = q) (h : Posts q 0 db) :
    (single q first).Safe k (sendToWebhook sid event payload) db := by
  have hi : ∀ e db, Posts q 1 db → (single q first).Safe k
      (insertDelivery q (firstFailed sid event payload none e)) db := fun _ _ hd =>
    (leaves_insert_own hf (fun _ _ => rfl) hd).mono (fun _ _ _ _ => trivial) fun _ _ _ _ => trivial
  have hw : (single q first).Leaves k (Posts q 1) (Posts q 1) (postWebhook ⟨q,none⟩) db :=
    leaves_postWebhook_own hf hu rfl h
  rw [sendToWebhook,hk]
  refine ensures_tryCatch (ensures_bind (hw.mono (fun st db _ hd => ?_)
    fun _ db _ hd => hi _ db hd))
  refine (leaves_insert_own hf (fun now id => ?_) hd).mono (fun _ _ _ _ => trivial)
    fun _ db _ hd => hi _ db hd
  split
  · rfl
  · rfl

end

variable [DecidableEq κ]

/-- **Attempts at a delivery.** However a dispatch and runs of the processor interleave, and whatever
fails: if the address of the subscription is not refused, then the stored attempts are the posts
that were made, these are no more than four, and none is made after the delivery has arrived. -/
theorem bounded_run (env : Env) (jobs : κ → Job) (q : Key) (db : Db) (hstart : Initial q db)
    (honce : ∀ j k, (jobs j).key = some q → (jobs k).key = some q → j = k)
    (turns : List (Turn κ Answer Nat))
    (hlegal : Pool.Legal pass (Reachable q) (fun _ _ => True) turns (webhookPool env jobs db)) :
    Bounded q ((webhookPool env jobs db).run pass turns).state := by
  have ho : (single q fun k => (jobs k).key = some q).Obeyed (fun _ _ _ => True)
      (fun _ _ _ => True) (webhookPool env jobs db) := by
    refine ⟨hstart.sent,fun k => ?_⟩
    show Discipline.Ensures _ _ _ _ ((jobs k).program env) db
    cases hj : jobs k with
    | tick => exact safe_tick
    | dispatch sid event =>
      by_cases hk : (sid,event.eventId) = q
      · have hf : (jobs k).key = some q := by rw [hj,← hk]; rfl
        refine safe_dispatch (posts_stable hf 0) (fun _ _ hd => safe_sendToWebhook_own hf
          (fun j hj => honce j k hj hf) hk hd) ?_
        rw [Posts,Db.posted,hstart.posts]
        rfl
      · exact safe_dispatch (P := fun _ => True) (fun _ _ _ h => h)
          (fun _ _ _ => safe_sendToWebhook_other hk) trivial
  have hu : (single q fun k => (jobs k).key = some q).Undisturbed pass fun _ _ => True :=
    fun _ _ hs _ => ⟨⟨hs.once,hs.counted,hs.late⟩,trivial,fun _ _ => rfl⟩
  exact (ho.run hu hlegal).2.1.bounded

private def plainEnv : Env := ⟨65536,fun _ => 2,fun _ _ => none⟩

private inductive Caller
  | first
  | second
  | processor
  deriving DecidableEq

private def approvals : Caller → Job
  | .first => .dispatch 1 ⟨"event","LoanApproved",[]⟩
  | .second => .dispatch 1 ⟨"other","LoanApproved",[]⟩
  | .processor => .tick

private def subscribed : Db :=
  ⟨[⟨1,"https://example.com/hook",["LoanApproved"],none,true⟩],[],1,0,[],[]⟩

private def steps (k : Caller) (n status : Nat) : List (Turn Caller Answer Nat) :=
  List.replicate n (.step k ⟨.none,.ok (),.ok status⟩)

/-- The first event is refused with `503`, an answer for the second is lost when it is stored, and
a tick comes when both are due. -/
private def overlapping : List (Turn Caller Answer Nat) :=
  steps .first 3 503 ++ steps .second 4 503 ++ steps .first 2 503 ++
    [.step .second ⟨.late,.ok (),.ok 503⟩] ++ steps .second 1 503 ++ [.outside 300000] ++
    steps .processor 3 200

theorem bounded_run_overlapping :
    let after := ((webhookPool plainEnv approvals subscribed).run pass overlapping).state
    Bounded (1,"event") after ∧ Bounded (1,"other") after ∧
      after.posts.map (·.key) = [(1,"other"),(1,"event")] ∧
      after.due.map (fun row => (row.delivery.key,row.delivery.attemptCount)) =
        [((1,"event"),1),((1,"other"),1),((1,"other"),1)] := by
  refine ⟨?_,?_,by decide +kernel,by decide +kernel⟩
  · exact bounded_run plainEnv approvals (1,"event") subscribed ⟨by simp [subscribed],rfl,rfl⟩
      (by rintro (_ | _ | _) (_ | _ | _) <;> decide) _ (by decide +kernel)
  · exact bounded_run plainEnv approvals (1,"other") subscribed ⟨by simp [subscribed],rfl,rfl⟩
      (by rintro (_ | _ | _) (_ | _ | _) <;> decide) _ (by decide +kernel)

/-- An attempt is counted at an address that is refused, where nothing was posted. -/
theorem counted_without_post : ¬ ∀ (turns : List (Turn Caller Answer Nat)),
    Bounded (1,"event") ((webhookPool plainEnv approvals subscribed).run pass turns).state := by
  intro h
  let turns : List (Turn Caller Answer Nat) :=
    List.replicate 3 (.step .first ⟨.none,.error .disallowed,.ok 200⟩)
  have hc : ∃ d ∈ ((webhookPool plainEnv approvals subscribed).run pass turns).state.deliveries,
      d.key = (1,"event") ∧ d.attemptCount = 1 := by decide +kernel
  have hp : ((webhookPool plainEnv approvals subscribed).run pass turns).state.posted
      (1,"event") = 0 := by decide +kernel
  obtain ⟨d,hd,hk,ha⟩ := hc
  have hb := (h turns).counted d hd hk
  rw [ha,hp] at hb
  cases hb

end DukaPay.Backend.Webhooks
