import DukaPay.Backend.Remittances
import Mathlib.Algebra.Order.BigOperators.Group.List
import Mathlib.Tactic.Linarith

/-! A remittance is inserted with the time at which its call started, some time after it was
screened. -/
namespace DukaPay.Backend.Remittances
open Contractlib Discipline List

def window (first : Int) (remittances : List Remittance) : List Remittance :=
  remittances.filter fun r => first ≤ r.createdAt ∧ r.createdAt ≤ first + day

variable {κ : Type}

section
variable (env : Env) (sender : String)

structure Cleared (db : Db κ) : Prop where
  pos : ∀ r ∈ ofSender sender db.remittances, 0 < r.amount
  below : ∀ first, total (window first (ofSender sender db.remittances)) < env.amlReportingThreshold
  within : ∀ first,
    (window first (ofSender sender db.remittances)).length ≤ env.amlDailyTxLimit

def Settled (k : κ) (db : Db κ) : Statement → Answer → Prop
  | .selectHistory,_ => ∀ r ∈ ofSender sender db.remittances,
    r.createdAt < db.started k - day ∨ db.now - day ≤ r.createdAt
  | .insertRemittance,_ => ofSender sender db.remittances = ofSender sender (db.seen k)
  | _,_ => True

instance (k : κ) (db : Db κ) (c : Statement) (i : Answer) : Decidable (Settled sender k db c i) :=
  match c with
  | .selectHistory => inferInstanceAs (Decidable (∀ r ∈ ofSender _ _, _))
  | .insertRemittance => inferInstanceAs (Decidable (ofSender _ _ = ofSender _ _))
  | .start | .selectProfile | .audit | .insertAlert | .insertSar | .submitSar | .getAccount =>
    .isTrue trivial

def screened : Discipline κ Statement Answer (Db κ) where
  inv := Cleared env sender
  guar _ _ := True
  rely k db db' := db'.started k = db.started k ∧ db'.seen k = db.seen k
  permits := Settled sender
  guar_refl _ := trivial
  guar_trans _ _ := trivial
  rely_refl _ _ := ⟨rfl,rfl⟩
  rely_trans h h' := ⟨h'.1.trans h.1,h'.2.trans h.2⟩

variable {env sender} {k : κ} {db db' : Db κ}

lemma screened_keeps_of_eq (h : Cleared env sender db)
    (hr : db'.remittances = db.remittances) (ht : db'.started = db.started)
    (hs : db'.seen = db.seen) : (screened env sender).Keeps k db db' := by
  refine ⟨⟨?_,?_,?_⟩,trivial,fun j _ => ⟨by rw [ht],by rw [hs]⟩⟩
  · rw [hr]
    exact h.pos
  · rw [hr]
    exact h.below
  · rw [hr]
    exact h.within

lemma screened_keeps_self (h : Cleared env sender db) : (screened env sender).Keeps k db db :=
  screened_keeps_of_eq h rfl rfl rfl

def Admitted (env : Env) (sender : String) (amount : ℚ) (k : κ) (db : Db κ) : Prop :=
  ∃ rows, (∀ first, first ≤ db.started k → db.started k ≤ first + day →
      (window first (ofSender sender (db.seen k))).Sublist rows) ∧
    rows.Sublist (ofSender sender (db.seen k)) ∧
    total rows + amount < env.amlReportingThreshold ∧ rows.length < env.amlDailyTxLimit

lemma Admitted.of_rely {x} (h : Admitted env sender x k db)
    (hr : (screened env sender).rely k db db') : Admitted env sender x k db' := by
  obtain ⟨ht,hs⟩ := hr
  rw [Admitted,ht,hs]
  exact h

lemma total_le_of_sublist {rows rows' : List Remittance} (h : rows.Sublist rows')
    (hp : ∀ r ∈ rows', 0 < r.amount) : total rows ≤ total rows' := by
  refine (h.map (·.amount)).sum_le_sum fun a ha => ?_
  obtain ⟨r,hr,rfl⟩ := mem_map.mp ha
  exact (hp r hr).le

lemma screened_keeps_insert {row : Remittance} (h : Cleared env sender db)
    (hs : ofSender sender db.remittances = ofSender sender (db.seen k))
    (hsn : row.senderId = sender) (hp : 0 < row.amount)
    (hc : row.createdAt = db.started k) (ha : Admitted env sender row.amount k db) :
    (screened env sender).Keeps k db { db with remittances := db.remittances ++ [row] } := by
  obtain ⟨rows,hw,hrs,_,_⟩ := ha
  rw [← hs] at hw hrs
  have hsp : ofSender sender (db.remittances ++ [row]) =
      ofSender sender db.remittances ++ [row] := by
    simp [ofSender,filter_append,hsn]
  -- a window without the new row is as before, one with it has been screened
  have hcs : ∀ first, window first (ofSender sender (db.remittances ++ [row])) =
        window first (ofSender sender db.remittances) ∨
      (window first (ofSender sender (db.remittances ++ [row])) =
          window first (ofSender sender db.remittances) ++ [row] ∧
        (window first (ofSender sender db.remittances)).Sublist rows) := by
    intro first
    rw [hsp]
    by_cases hi : first ≤ row.createdAt ∧ row.createdAt ≤ first + day
    · refine .inr ⟨?_,hw first (hc ▸ hi.1) (hc ▸ hi.2)⟩
      simp [window,filter_append,hi]
    · refine .inl ?_
      simp only [window,filter_append,append_right_eq_self]
      simp [hi]
  refine ⟨⟨fun r hr => ?_,fun first => ?_,fun first => ?_⟩,trivial,fun j _ => ⟨rfl,rfl⟩⟩
  · rcases mem_append.mp (hsp ▸ hr) with hr | hr
    · exact h.pos r hr
    · rw [mem_singleton.mp hr]
      exact hp
  · show total (window first (ofSender sender (db.remittances ++ [row]))) < _
    rcases hcs first with hwi | ⟨hwi,hsb⟩
    · rw [hwi]
      exact h.below first
    have hl := total_le_of_sublist hsb fun r hr => h.pos r (hrs.subset hr)
    have hla : total (window first (ofSender sender db.remittances) ++ [row]) =
        total (window first (ofSender sender db.remittances)) + row.amount := by
      simp [total]
    rw [hwi,hla]
    linarith
  · show (window first (ofSender sender (db.remittances ++ [row]))).length ≤ _
    rcases hcs first with hwi | ⟨hwi,hsb⟩
    · rw [hwi]
      exact h.within first
    have hl := hsb.length_le
    rw [hwi,length_append,length_singleton]
    omega

end

section
variable {env : Env} {sender : String} {k : κ} {db : Db κ}

lemma brokenRules_eq_nil {rows x countryCode}
    (h : brokenRules env (history env rows) x countryCode = []) :
    total rows + x < env.amlReportingThreshold ∧ rows.length < env.amlDailyTxLimit := by
  simp only [brokenRules,append_eq_nil_iff] at h
  obtain ⟨⟨⟨⟨hc,ht⟩,-⟩,-⟩,-⟩ := h
  refine ⟨not_le.mp fun hl => ?_,not_le.mp fun hl => ?_⟩
  · rw [if_pos (show env.amlReportingThreshold ≤ (history env rows).amount24h + x from hl)] at ht
    cases ht
  · rw [if_pos (show env.amlDailyTxLimit ≤ (history env rows).count24h from hl)] at hc
    cases hc

lemma ensures_aside {α : Type} {c} {f : Answer → Db κ → Except Failure α × Db κ}
    {e} {P : Db κ → Prop}
    (hf : ∀ i db, (f i db).2.remittances = db.remittances ∧ (f i db).2.started = db.started ∧
    (f i db).2.seen = db.seen)
    (hb : ∀ db db', (screened env sender).rely k db db' → P db → P db') (hP : P db) :
    (screened env sender).Ensures k (fun _ => P) (fun _ _ => True)
    (.faulty c Answer.fault e f) db := by
  refine ensures_faulty (fun _ _ => trivial) fun db1 hd1 hc i _ => ?_
  obtain ⟨hr,ht,he⟩ := hf i db1
  refine ⟨screened_keeps_of_eq hc hr ht he,fun db2 hd2 _ _ _ => ?_⟩
  have hs : (screened env sender).rely k db1 (f i db1).2 := ⟨by rw [ht],by rw [he]⟩
  exact hb _ _ hd2 (hb _ _ hs (hb _ _ hd1 hP))

def Screened (env : Env) (sender : String) (k : κ) (row : History) (db : Db κ) : Prop :=
  ∃ rows, row = history env rows ∧ (∀ first, first ≤ db.started k → db.started k ≤ first + day →
      (window first (ofSender sender (db.seen k))).Sublist rows) ∧
    rows.Sublist (ofSender sender (db.seen k))

lemma Screened.of_rely {row db'} (h : Screened env sender k row db)
    (hr : (screened env sender).rely k db db') : Screened env sender k row db' := by
  obtain ⟨ht,hs⟩ := hr
  rw [Screened,ht,hs]
  exact h

lemma started_of_rely {time} (db db') (hr : (screened env sender).rely k db db')
    (h : db.started k = time) : db'.started k = time := hr.1.trans h

lemma ensures_raiseAlert (ref rules) :
    (screened env sender).Ensures k (fun res _ => res.1 = false) (fun _ _ => True)
    (raiseAlert sender ref rules : Program κ (Bool × List Rule)) db := by
  refine ensures_andThen (ensures_aside (P := fun _ => True)
    (fun _ _ => ⟨rfl,rfl,rfl⟩) (fun _ _ _ h => h) trivial) fun alertId _ => ?_
  refine ensures_andThen (ensures_aside (P := fun _ => True)
    (fun _ _ => ⟨rfl,rfl,rfl⟩) (fun _ _ _ h => h) trivial) fun _ _ => ?_
  refine ensures_andThen (ensures_aside (P := fun _ => True)
    (fun _ _ => ⟨rfl,rfl,rfl⟩) (fun _ _ _ h => h) trivial) fun _ db1 => ?_
  have hs : (screened env sender).Safe k (submitSar : Program κ Unit) db1 :=
    ensures_statement fun _ _ hc _ _ => ⟨screened_keeps_self hc,
      fun _ _ _ => ⟨fun _ _ => trivial,fun _ _ => trivial⟩⟩
  exact ensures_andThen hs fun _ _ => ensures_pure fun _ _ _ => rfl

lemma ensures_insertRemittance {row : Remittance} (hn : row.senderId = sender) (hp : 0 < row.amount)
    (ha : Admitted env sender row.amount k db) (hr : db.started k = row.createdAt) :
    (screened env sender).Safe k (insertRemittance row) db := by
  refine ensures_faulty (fun _ _ => trivial) fun db1 hd1 hc _ hs => ?_
  cases selectRow Remittance.id row.id db1.remittances with
  | some _ => exact ⟨screened_keeps_self hc,fun _ _ _ _ _ => trivial⟩
  | none =>
    exact ⟨screened_keeps_insert hc hs hn hp (hd1.1.trans hr).symm
      (ha.of_rely hd1),fun _ _ _ _ _ => trivial⟩

variable [DecidableEq κ]

lemma ensures_start :
    (screened env sender).Ensures k (fun res db => db.started k = res.2) (fun _ _ => True)
    (start k) db := by
  refine ensures_statement fun db1 _ hc i _ => ?_
  refine ⟨⟨⟨hc.pos,hc.below,hc.within⟩,trivial,
    fun j hj => ⟨if_neg hj,rfl⟩⟩,fun db2 hd2 _ => ⟨fun res h => ?_,fun _ _ => trivial⟩⟩
  cases h
  exact hd2.1.trans (if_pos rfl)

lemma ensures_selectHistory {time} (hm : db.started k = time) : (screened env sender).Ensures k
    (fun row db => Screened env sender k row db ∧ db.started k = time) (fun _ _ => True)
    (selectHistory env k sender) db := by
  refine ensures_faulty (fun _ _ => trivial) fun db1 hd1 hc _ ht =>
    ⟨⟨⟨hc.pos,hc.below,hc.within⟩,trivial,fun j hj => ⟨rfl,if_neg hj⟩⟩,
      fun db2 hd2 _ row hw => ⟨?_,hd2.1.trans (hd1.1.trans hm)⟩⟩
  cases hw
  have hst : db2.started k = db1.started k := hd2.1
  have hs : db2.seen k = db1.remittances := hd2.2.trans (if_pos rfl)
  rw [Screened,hst,hs]
  refine ⟨_,rfl,fun first hf hl => ?_,filter_sublist⟩
  have hn : window first (ofSender sender db1.remittances) =
      window first (since (db1.now - day) (ofSender sender db1.remittances)) := by
    rw [window,window,since,filter_filter]
    refine filter_congr fun r hr => ?_
    have hg := ht r hr
    rw [Bool.eq_iff_iff,Bool.and_eq_true,decide_eq_true_eq,decide_eq_true_eq]
    refine ⟨fun h => ⟨h,?_⟩,fun h => h.1⟩
    have hcr : first ≤ r.createdAt := h.1
    omega
  rw [hn]
  exact filter_sublist

lemma ensures_monitorTransaction (he : env.kycEnforcementEnabled = true) {time}
    (ht : db.started k = time) (x : ℚ) (reference) :
    (screened env sender).Ensures k (fun res db => res.1 = true →
    Admitted env sender x k db ∧ db.started k = time) (fun _ _ => True)
    (monitorTransaction env k sender x reference) db := by
  rw [monitorTransaction,if_neg (by rw [he]; exact Bool.noConfusion)]
  refine ensures_bind ((ensures_aside (fun _ _ => ⟨rfl,rfl,rfl⟩) started_of_rely
    ht).mono (fun prof db1 _ ht1 => ?_) fun _ _ _ h => h)
  cases prof.filter (·.status = .approved) with
  | none =>
    refine ensures_andThen (ensures_aside (P := fun _ => True)
      (fun _ _ => ⟨rfl,rfl,rfl⟩) (fun _ _ _ h => h) trivial) fun _ _ => ?_
    exact ensures_pure fun _ _ _ h => (by cases h)
  | some prof =>
    refine ensures_bind ((ensures_selectHistory ht1).mono
      (fun row db2 _ hd2 => ?_) fun _ _ _ h => h)
    by_cases hr : brokenRules env row x prof.countryCode = []
    · simp only [hr,if_true]
      refine ensures_pure fun db3 hd3 _ _ => ⟨?_,hd3.1.trans hd2.2⟩
      obtain ⟨rows,rfl,hw,hrs⟩ := hd2.1.of_rely hd3
      exact ⟨rows,hw,hrs,brokenRules_eq_nil hr⟩
    simp only [hr,if_false]
    exact (ensures_raiseAlert reference _).mono (fun _ _ _ hre h => (by
      rw [hre] at h
      cases h)) fun _ _ _ h => h

lemma ensures_createRemittance (he : env.kycEnforcementEnabled = true)
    (p : CreateRemittancePayload) (hn : p.senderAddress = sender) :
    (screened env sender).Safe k (createRemittance env k p) db := by
  rw [createRemittance,hn]
  refine ensures_bind (ensures_start.mono (fun res db1 _ ht => ?_) fun _ _ _ h => h)
  obtain ⟨id,now⟩ := res
  simp only
  split
  · exact ensures_throw fun _ _ _ => trivial
  split
  · exact ensures_throw fun _ _ _ => trivial
  cases getCurrencyAsset env p.fromCurrency with
  | error => exact ensures_throw fun _ _ _ => trivial
  | ok =>
    refine ensures_bind ((ensures_monitorTransaction he ht p.amount
      id).mono (fun res db2 _ ha => ?_) fun _ _ _ h => h)
    obtain ⟨al,_⟩ := res
    cases al with
    | false => exact ensures_throw fun _ _ _ => trivial
    | true =>
      have hs : ∀ db db', (screened env sender).rely k db db' →
          Admitted env sender p.amount k db ∧ db.started k = now →
          Admitted env sender p.amount k db' ∧ db'.started k = now :=
        fun _ _ hr h => ⟨h.1.of_rely hr,hr.1.trans h.2⟩
      refine ensures_bind ((ensures_aside (fun _ _ => ⟨rfl,rfl,rfl⟩) hs
        (ha rfl)).mono (fun _ db3 _ hd3 => ?_) fun _ _ _ h => h)
      exact ensures_insertRemittance rfl p.amount_pos hd3.1 hd3.2

end

section
variable [DecidableEq κ]

/-- Calls of one sender, however they interleave and fail. If a call is screened against every
remittance that its row will be counted with, then every window of 24 hours is below the reporting
threshold and within the daily limit. -/
theorem cleared_run (env : Env) (henforced : env.kycEnforcementEnabled = true) (sender : String)
    (payloads : κ → CreateRemittancePayload) (hsender : ∀ k, (payloads k).senderAddress = sender)
    (db : Db κ) (hcleared : Cleared env sender db) (turns : List (Turn κ Answer Nat))
    (hsettled : Pool.Legal pass (Settled sender) (fun _ _ => True) turns
      (remittancePool env payloads db)) (first : Int) :
    let rows := window first (ofSender sender
      ((remittancePool env payloads db).run pass turns).state.remittances)
    total rows < env.amlReportingThreshold ∧ rows.length ≤ env.amlDailyTxLimit := by
  have hu : (screened env sender).Undisturbed (pass (κ := κ)) (fun _ _ => True) :=
    fun _ _ h _ => ⟨⟨h.pos,h.below,h.within⟩,trivial,fun _ => ⟨rfl,rfl⟩⟩
  have hs : (screened env sender).Obeyed (fun _ _ _ => True) (fun _ _ _ => True)
      (remittancePool env payloads db) :=
    ⟨hcleared,fun k => ensures_createRemittance henforced (payloads k) (hsender k)⟩
  obtain ⟨-,ha,-⟩ := hs.run hu hsettled
  exact ⟨ha.below first,ha.within first⟩

end

def defaults : Env := ⟨true,10000,10,[],none,none,none⟩

def untouched : Db Bool := ⟨[],fun _ => some ⟨.approved,"KE"⟩,[],[],0,fun _ => 0,fun _ => []⟩

def sender : String := "GAAAAAAAAAAAAAAAAAAAAAAAAAAAAAAAAAAAAAAAAAAAAAAAAAAAAAAA"

def halves (_ : Bool) : CreateRemittancePayload where
  recipientAddress := "GBBBBBBBBBBBBBBBBBBBBBBBBBBBBBBBBBBBBBBBBBBBBBBBBBBBBBBB"
  amount := 6000
  fromCurrency := "XLM"
  toCurrency := "XLM"
  memo := none
  senderAddress := sender
  amount_pos := by decide

def remittanceTurns (k : Bool) (id : String) : List (Turn Bool Answer Nat) :=
  List.replicate 7 (.step k ⟨.none,id⟩)

theorem cleared_run_in_turn :
    let turns := remittanceTurns false "1" ++ remittanceTurns true "2"
    let after := ((remittancePool defaults halves untouched).run pass turns).state
    let rows := window 0 (ofSender sender after.remittances)
    (total rows < 10000 ∧ rows.length ≤ 10) ∧ after.remittances.length = 1 :=
  ⟨cleared_run defaults rfl sender halves (fun _ => rfl) untouched
    ⟨fun r hr => (by cases hr),fun _ => show (0 : ℚ) < 10000 by decide,
      fun _ => Nat.zero_le 10⟩ _
    (by decide +kernel) 0,by decide +kernel⟩

/-- Both calls are screened before either inserts its row. -/
theorem threshold_reached : ¬ ∀ (turns : List (Turn Bool Answer Nat)) (first : Int),
    total (window first (ofSender sender
    ((remittancePool defaults halves untouched).run pass turns).state.remittances)) < 10000 := by
  intro h
  refine absurd (h (List.replicate 4 (.step false ⟨.none,"1"⟩) ++
    List.replicate 5 (.step true ⟨.none,"2"⟩) ++ [.step false ⟨.none,"1"⟩]) 0) ?_
  decide +kernel

end DukaPay.Backend.Remittances
