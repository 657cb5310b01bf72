import DukaPay.Backend.FloatTransfers
import Mathlib.Algebra.Order.BigOperators.Group.List
import Mathlib.Tactic.Linarith

/-! A call sums up the transfers of the last day and of the last week in two queries and inserts its
own transfer in a third statement. -/
namespace DukaPay.Backend.FloatTransfers
open Contractlib Discipline List

section
variable {since since' : Int} {rows rows' : List Transfer}

lemma total_cons (t) :
    total since (t :: rows) = (if (t.status = .pendingApproval ∨ t.status = .completed) ∧
    since ≤ t.createdAt then t.amount else 0) + total since rows := by
  simp only [total,filter_cons,decide_eq_true_eq]
  split
  · rw [map_cons,sum_cons]
  · rw [zero_add]

lemma total_append : total since (rows ++ rows') = total since rows + total since rows' := by
  simp only [total,filter_append,map_append,sum_append]

lemma total_anti (hn : ∀ t ∈ rows, 0 ≤ t.amount) (h : since ≤ since') :
    total since' rows ≤ total since rows := by
  induction rows with
  | nil => exact le_refl _
  | cons t rows ih =>
    have hr := ih fun t' ht' => hn t' (mem_cons_of_mem t ht')
    have ht := hn t mem_cons_self
    rw [total_cons,total_cons]
    by_cases hw : (t.status = .pendingApproval ∨ t.status = .completed) ∧ since' ≤ t.createdAt
    · rw [if_pos hw,if_pos ⟨hw.1,h.trans hw.2⟩]
      linarith
    · rw [if_neg hw]
      split <;> linarith

end

variable {κ : Type}

def Db.limitsOf (fromAgent toAgent : String) (db : Db κ) : ℚ × ℚ :=
  match selectRow (fun l => (l.fromAgent,l.toAgent)) (fromAgent,toAgent) db.limits with
  | some row => (row.dailyLimit,row.weeklyLimit)
  | none => (defaultDailyLimit,defaultWeeklyLimit)

section
variable (fromAgent toAgent : String)

def Unraced (k : κ) (db : Db κ) : Statement → Answer → Prop
  | .selectLimits,i => i.fault = .none
  | .insertTransfer,_ =>
    ofPair fromAgent toAgent db.transfers = ofPair fromAgent toAgent (db.seen k)
  | _,_ => True

instance (k : κ) (db : Db κ) (c : Statement) (i : Answer) :
    Decidable (Unraced fromAgent toAgent k db c i) :=
  match c with
  | .selectLimits => inferInstanceAs (Decidable (i.fault = .none))
  | .insertTransfer => inferInstanceAs (Decidable (ofPair _ _ _ = ofPair _ _ _))
  | .selectDaily | .selectWeekly | .selectTransfer | .selectApproval | .insertApproval _ | .audit
  | .build | .updateTransfer | .rejectTransfer | .selectApprovals => .isTrue trivial

structure Within (daily weekly : ℚ) (db : Db κ) : Prop where
  limits : db.limitsOf fromAgent toAgent = (daily, weekly)
  nonneg : ∀ t ∈ ofPair fromAgent toAgent db.transfers, 0 ≤ t.amount
  daily : total (db.now - day) (ofPair fromAgent toAgent db.transfers) ≤ daily
  weekly : total (db.now - week) (ofPair fromAgent toAgent db.transfers) ≤ weekly

structure Grows (k : κ) (db db' : Db κ) : Prop where
  seen : db'.seen k = db.seen k
  rows : ofPair fromAgent toAgent db.transfers <+: ofPair fromAgent toAgent db'.transfers
  now : db.now ≤ db'.now

def checked (daily weekly : ℚ) : Discipline κ Statement Answer (Db κ) where
  inv := Within fromAgent toAgent daily weekly
  guar _ _ := True
  rely := Grows fromAgent toAgent
  permits := Unraced fromAgent toAgent
  guar_refl _ := trivial
  guar_trans _ _ := trivial
  rely_refl _ _ := ⟨rfl,List.prefix_refl _,le_refl _⟩
  rely_trans h h' := ⟨h'.seen.trans h.seen,h.rows.trans h'.rows,h.now.trans h'.now⟩

variable {fromAgent toAgent} {daily weekly : ℚ} {k : κ} {db db' : Db κ}

lemma checked_keeps_self (h : Within fromAgent toAgent daily weekly db) :
    (checked fromAgent toAgent daily weekly).Keeps k db db :=
  ⟨h,trivial,fun j _ => (checked fromAgent toAgent daily weekly).rely_refl j db⟩

lemma checked_keeps_see [DecidableEq κ] (h : Within fromAgent toAgent daily weekly db) :
    (checked fromAgent toAgent daily weekly).Keeps k db (db.see k) :=
  ⟨⟨h.limits,h.nonneg,h.daily,h.weekly⟩,trivial,fun _ hj => ⟨if_neg hj,prefix_refl _,le_refl _⟩⟩

variable (fromAgent toAgent) in
def Summed (k : κ) (window : Int) (sum : ℚ) (db : Db κ) : Prop :=
  ∃ time ≤ db.now, ∃ rows, sum = total (time - window) rows ∧
    ofPair fromAgent toAgent (db.seen k) <+: rows ∧ rows <+: ofPair fromAgent toAgent db.transfers

lemma Summed.of_grows {w sum} (h : Summed fromAgent toAgent k w sum db)
    (hr : Grows fromAgent toAgent k db db') : Summed fromAgent toAgent k w sum db' := by
  obtain ⟨time,ht,rows,hm,he,hs⟩ := h
  refine ⟨time,ht.trans hr.now,rows,hm,?_,hs.trans hr.rows⟩
  rw [hr.seen]
  exact he

lemma Summed.total_le {w sum} (h : Summed fromAgent toAgent k w sum db)
    (hs : ofPair fromAgent toAgent db.transfers = ofPair fromAgent toAgent (db.seen k))
    (hn : ∀ t ∈ ofPair fromAgent toAgent db.transfers, 0 ≤ t.amount) :
    total (db.now - w) (ofPair fromAgent toAgent db.transfers) ≤ sum := by
  obtain ⟨_,ht,rows,rfl,hse,hr⟩ := h
  rw [← hs] at hse
  have he : ofPair fromAgent toAgent db.transfers = rows := hse.eq_of_length_le hr.length_le
  rw [he] at hn ⊢
  exact total_anti hn (Int.sub_le_sub_right ht w)

lemma checked_keeps_insert {t : Transfer} {dailyTotal weeklyTotal}
    (h : Within fromAgent toAgent daily weekly db)
    (hs : ofPair fromAgent toAgent db.transfers = ofPair fromAgent toAgent (db.seen k))
    (hr : t.fromAgent = fromAgent ∧ t.toAgent = toAgent) (ha : 0 < t.amount)
    (hc : t.createdAt = db.now) (hp : t.status = .pendingApproval)
    (hd : Summed fromAgent toAgent k day dailyTotal db)
    (hw : Summed fromAgent toAgent k week weeklyTotal db)
    (hdailyLimit : dailyTotal + t.amount ≤ daily) (hweeklyLimit : weeklyTotal + t.amount ≤ weekly) :
    (checked fromAgent toAgent daily weekly).Keeps k db
    { db with transfers := db.transfers ++ [t] } := by
  have hrs : ofPair fromAgent toAgent (db.transfers ++ [t]) =
      ofPair fromAgent toAgent db.transfers ++ [t] := by
    simp [ofPair,filter_append,hr]
  have hl : ∀ win, 0 ≤ win → total (db.now - win) [t] = t.amount := by
    intro win hwn
    have hn : db.now - win ≤ t.createdAt := by omega
    rw [total_cons,if_pos ⟨.inl hp,hn⟩]
    exact add_zero t.amount
  refine ⟨⟨h.limits,?_,?_,?_⟩,trivial,fun j _ => ⟨rfl,?_,le_refl _⟩⟩
  · intro t' ht'
    rcases mem_append.mp (hrs ▸ ht') with ht' | ht'
    · exact h.nonneg t' ht'
    · rw [mem_singleton.mp ht']
      exact ha.le
  · show total (db.now - day) (ofPair fromAgent toAgent (db.transfers ++ [t])) ≤ daily
    have ho := hd.total_le hs h.nonneg
    rw [hrs,total_append,hl day (by decide)]
    linarith
  · show total (db.now - week) (ofPair fromAgent toAgent (db.transfers ++ [t])) ≤ weekly
    have ho := hw.total_le hs h.nonneg
    rw [hrs,total_append,hl week (by decide)]
    linarith
  · show _ <+: ofPair fromAgent toAgent (db.transfers ++ [t])
    rw [hrs]
    exact prefix_append _ _

lemma checked_keeps_of_transfers (h : Within fromAgent toAgent daily weekly db)
    (ht : db'.transfers = db.transfers) (hl : db'.limits = db.limits) (hw : db'.now = db.now)
    (hs : db'.seen = db.seen) : (checked fromAgent toAgent daily weekly).Keeps k db db' := by
  refine ⟨⟨?_,?_,?_,?_⟩,trivial,fun j _ => ⟨by rw [hs],?_,hw.ge⟩⟩
  · rw [Db.limitsOf,hl]
    exact h.limits
  · rw [ht]
    exact h.nonneg
  · rw [ht,hw]
    exact h.daily
  · rw [ht,hw]
    exact h.weekly
  · have hp := congrArg (ofPair fromAgent toAgent) ht
    exact ⟨[],(append_nil _).trans hp.symm⟩

end

section
variable {fromAgent toAgent : String} {daily weekly : ℚ} {k : κ} {db : Db κ}

lemma ensures_getPairLimits : (checked fromAgent toAgent daily weekly).Ensures k
    (fun lim _ => lim = (daily,weekly)) (fun _ _ => True)
    (getPairLimits fromAgent toAgent : Program κ (ℚ × ℚ)) db := by
  refine ensures_statement fun db1 _ hn i hf => ?_
  have hl := hn.limits
  have hd : i.fault = .none := hf
  rw [Db.limitsOf] at hl
  rw [hd]
  cases hr : selectRow (fun l => (l.fromAgent,l.toAgent)) (fromAgent,toAgent) db1.limits with
  | none =>
    rw [hr] at hl
    refine ⟨checked_keeps_self hn,fun _ _ _ => ⟨fun lim h => ?_,fun _ _ => trivial⟩⟩
    cases h
    exact hl
  | some =>
    rw [hr] at hl
    refine ⟨checked_keeps_self hn,fun _ _ _ => ⟨fun lim h => ?_,fun _ _ => trivial⟩⟩
    cases h
    exact hl

lemma ensures_selectDaily [DecidableEq κ] : (checked fromAgent toAgent daily weekly).Ensures k
    (fun sum db => Summed fromAgent toAgent k day sum db) (fun _ _ => True)
    (selectDaily k fromAgent toAgent) db := by
  refine ensures_faulty (fun _ _ => trivial) fun db1 _ hn _ _ =>
    ⟨checked_keeps_see hn,fun db2 hd2 _ sum hm => ?_⟩
  cases hm
  have hs : (db1.see k).seen k = db1.transfers := if_pos rfl
  have hu : Summed fromAgent toAgent k day
      (total (db1.now - day) (ofPair fromAgent toAgent db1.transfers)) (db1.see k) := by
    have hp := congrArg (ofPair fromAgent toAgent) hs
    exact ⟨db1.now,le_refl _,_,rfl,⟨[],(append_nil _).trans hp⟩,prefix_refl _⟩
  exact hu.of_grows hd2

lemma ensures_selectWeekly {dailyTotal} (hd : Summed fromAgent toAgent k day dailyTotal db) :
    (checked fromAgent toAgent daily weekly).Ensures k
    (fun sum db => Summed fromAgent toAgent k week sum db ∧
    Summed fromAgent toAgent k day dailyTotal db) (fun _ _ => True)
    (selectWeekly fromAgent toAgent) db := by
  refine ensures_faulty (fun _ _ => trivial) fun db1 hdb1 hn _ _ =>
    ⟨checked_keeps_self hn,fun db2 hd2 _ sum hm => ?_⟩
  cases hm
  have hd1 := hd.of_grows hdb1
  obtain ⟨_,_,_,_,hs,hr⟩ := hd1
  have hu : Summed fromAgent toAgent k week
      (total (db1.now - week) (ofPair fromAgent toAgent db1.transfers)) db1 :=
    ⟨db1.now,le_refl _,_,rfl,hs.trans hr,prefix_refl _⟩
  exact ⟨hu.of_grows hd2,(hd.of_grows hdb1).of_grows hd2⟩

def Admitted (fromAgent toAgent : String) (daily weekly amount : ℚ) (k : κ) (db : Db κ) : Prop :=
  ∃ dailyTotal weeklyTotal, Summed fromAgent toAgent k day dailyTotal db ∧
    Summed fromAgent toAgent k week weeklyTotal db ∧ dailyTotal + amount ≤ daily ∧
    weeklyTotal + amount ≤ weekly

lemma ensures_checkLimits [DecidableEq κ] (x : ℚ) :
    (checked fromAgent toAgent daily weekly).Ensures k
    (fun _ => Admitted fromAgent toAgent daily weekly x k) (fun _ _ => True)
    (checkLimits k fromAgent toAgent x) db := by
  refine ensures_bind (ensures_getPairLimits.mono (fun limits db1 _ hl => ?_) fun _ _ _ h => h)
  subst hl
  refine ensures_bind (ensures_selectDaily.mono (fun dt db2 _ hd => ?_) fun _ _ _ h => h)
  by_cases ho : daily < dt + x
  · simp only [ho,if_true]
    exact ensures_throw fun _ _ _ => trivial
  simp only [ho,if_false]
  refine ensures_bind ((ensures_selectWeekly hd).mono (fun wk db3 _ hs => ?_) fun _ _ _ h => h)
  by_cases ho' : weekly < wk + x
  · simp only [ho',if_true]
    exact ensures_throw fun _ _ _ => trivial
  simp only [ho',if_false]
  exact ensures_pure fun db4 hd4 _ => ⟨dt,wk,
    hs.2.of_grows hd4,hs.1.of_grows hd4,not_lt.mp ho,not_lt.mp ho'⟩

lemma ensures_insertTransfer {inp : InitiateTransferInput}
    (hp : inp.fromAgent = fromAgent ∧ inp.toAgent = toAgent) (hm : 0 < inp.amount)
    (ha : Admitted fromAgent toAgent daily weekly inp.amount k db) :
    (checked fromAgent toAgent daily weekly).Safe k (insertTransfer inp) db := by
  refine ensures_faulty (fun _ _ => trivial) fun db1 hd1 hn i hs => ?_
  obtain ⟨_,_,hd,hw,hda,hwe⟩ := ha
  cases db1.transfer? i.id with
  | some _ => exact ⟨checked_keeps_self hn,fun _ _ _ _ _ => trivial⟩
  | none =>
    exact ⟨checked_keeps_insert hn hs hp hm rfl rfl (hd.of_grows hd1)
      (hw.of_grows hd1) hda hwe,fun _ _ _ _ _ => trivial⟩

lemma ensures_initialApproval (apv) : (checked fromAgent toAgent daily weekly).Safe k
    (insertApproval apv : Program κ Unit) db := by
  refine ensures_faulty (fun _ _ => trivial) fun db1 _ hn _ _ => ?_
  split
  · exact ⟨checked_keeps_self hn,fun _ _ _ _ _ => trivial⟩
  · exact ⟨checked_keeps_of_transfers hn rfl rfl rfl rfl,fun _ _ _ _ _ => trivial⟩

lemma ensures_initialAudit :
    (checked fromAgent toAgent daily weekly).Safe k (logAudit : Program κ Unit) db :=
  Discipline.ensures_statement fun _ _ hn _ _ => ⟨checked_keeps_self hn,
    fun _ _ _ => ⟨fun _ _ => trivial,fun _ _ => trivial⟩⟩

lemma ensures_initiateTransfer [DecidableEq κ] (inp : InitiateTransferInput)
    (hp : inp.fromAgent = fromAgent ∧ inp.toAgent = toAgent) :
    (checked fromAgent toAgent daily weekly).Safe k (initiateTransfer k inp) db := by
  rw [initiateTransfer]
  split
  · exact ensures_throw fun _ _ _ => trivial
  split
  · exact ensures_throw fun _ _ _ => trivial
  · next hm =>
    split
    · exact ensures_throw fun _ _ _ => trivial
    rw [hp.1,hp.2]
    refine ensures_bind ((ensures_checkLimits inp.amount).mono
      (fun _ db1 _ ha => ?_) fun _ _ _ h => h)
    refine ensures_andThen (ensures_insertTransfer hp (not_le.mp hm) ha) fun tr _ => ?_
    refine ensures_andThen (ensures_initialApproval _) fun _ _ => ?_
    exact ensures_andThen ensures_initialAudit fun _ _ => ensures_pure fun _ _ _ => trivial

end

section
variable [DecidableEq κ]

def initiatePool (calls : κ → InitiateTransferInput) (db : Db κ) :
    Pool κ Failure Statement Answer (Db κ) (Transfer × List Approval) :=
  ⟨fun k => initiateTransfer k (calls k),db⟩

/-- Calls that initiate transfers of one pair, however they interleave and fail. If limits can be
read and no transfer of the pair is inserted between the sums that a call has read and its insert,
the totals of the pair are within its limits at any time. -/
theorem within_run (fromAgent toAgent : String) (calls : κ → InitiateTransferInput)
    (hcalls : ∀ k, (calls k).fromAgent = fromAgent ∧ (calls k).toAgent = toAgent)
    (daily weekly : ℚ) (db : Db κ) (hdb : Within fromAgent toAgent daily weekly db)
    (turns : List (Turn κ Answer Nat))
    (hunraced : Pool.Legal pass (Unraced fromAgent toAgent) (fun _ _ => True) turns
      (initiatePool calls db)) :
    let after := ((initiatePool calls db).run pass turns).state
    total (after.now - day) (ofPair fromAgent toAgent after.transfers) ≤ daily ∧
      total (after.now - week) (ofPair fromAgent toAgent after.transfers) ≤ weekly := by
  have hu : (checked fromAgent toAgent daily weekly).Undisturbed (pass (κ := κ))
      (fun _ _ => True) := by
    intro db d hw _
    have hn : db.now ≤ db.now + d := by omega
    refine ⟨⟨hw.limits,hw.nonneg,?_,?_⟩,trivial,fun _ => ⟨rfl,prefix_refl _,hn⟩⟩
    · exact (total_anti hw.nonneg (Int.sub_le_sub_right hn day)).trans hw.daily
    · exact (total_anti hw.nonneg (Int.sub_le_sub_right hn week)).trans hw.weekly
  have hs : (checked fromAgent toAgent daily weekly).Obeyed (fun _ _ _ => True)
      (fun _ _ _ => True) (initiatePool calls db) :=
    ⟨hdb,fun k => ensures_initiateTransfer (calls k) (hcalls k)⟩
  obtain ⟨-,ha,-⟩ := hs.run hu hunraced
  exact ⟨ha.daily,ha.weekly⟩

end

def untouched : Db Bool := ⟨[],[],[],0,fun _ => [],[]⟩

def halves (_ : Bool) : InitiateTransferInput := ⟨"GSOURCE","GTARGET",60000,none,"GSOURCE",none⟩

def initiateTurns (k : Bool) (id : String) : List (Turn Bool Answer Nat) :=
  List.replicate 6 (.step k ⟨.none,id,.ok ""⟩)

theorem within_run_in_turn :
    let turns := initiateTurns false "ft_1" ++ initiateTurns true "ft_2"
    let after := ((initiatePool halves untouched).run pass turns).state
    (total (after.now - day) (ofPair "GSOURCE" "GTARGET" after.transfers) ≤ 100000 ∧
      total (after.now - week) (ofPair "GSOURCE" "GTARGET" after.transfers) ≤ 500000) ∧
      after.transfers.length = 1 :=
  ⟨within_run "GSOURCE" "GTARGET" halves (fun _ => ⟨rfl,rfl⟩) 100000 500000 untouched
    ⟨rfl,fun t ht => (by cases ht),by decide +kernel,by decide +kernel⟩ _ (by decide +kernel),
    by decide +kernel⟩

/-- Both calls read a sum of zero, and both insert their transfer. -/
theorem limit_exceeded :
    ¬ ∀ turns : List (Turn Bool Answer Nat),
      let after := ((initiatePool halves untouched).run pass turns).state
      total (after.now - day) (ofPair "GSOURCE" "GTARGET" after.transfers) ≤ 100000 := by
  intro h
  refine absurd (h (List.replicate 3 (.step false ⟨.none,"ft_1",.ok ""⟩) ++
    List.replicate 4 (.step true ⟨.none,"ft_2",.ok ""⟩) ++
    [.step false ⟨.none,"ft_1",.ok ""⟩])) ?_
  decide +kernel

end DukaPay.Backend.FloatTransfers
