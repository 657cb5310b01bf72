import DukaPay.Money.Rounding

/-! Every instalment but the last is the same share, rounded; the last one takes what is left, which
is less than nothing when the shares were rounded up too often. -/
namespace DukaPay.Backend.RepaymentPreview
open List

/-- The nearest integer, the larger one of two. -/
def mathRound (x : ℚ) : Int := ⌊x + 1 / 2⌋

/-- Seven decimals, as whole stroops; the sign is set aside. From `1e21` on the method writes an
exponent, which is not modelled. -/
def toFixed (x : ℚ) : Int :=
  if x < 0 then -mathRound (-x * 10000000) else mathRound (x * 10000000)

def roundToCents (value : ℚ) : ℚ :=
  ((Decimal.roundDiv (toFixed value) 100000 .HalfEven).toOption.getD 0 : Int) / 100

structure Shares where
  principal : ℚ
  interest : ℚ
  fees : ℚ

structure Row where
  period : Nat
  /-- Days after the start. -/
  dueDate : Int
  principal : ℚ
  interest : ℚ
  fees : ℚ
  total : ℚ
  remainingBalance : ℚ

structure Preview where
  principal : ℚ
  interestRateBps : ℚ
  termLedgers : ℚ
  feeRateBps : ℚ
  totalInterest : ℚ
  totalFees : ℚ
  totalDue : ℚ
  schedule : List Row

def periodCount (termLedgers : ℚ) : Nat :=
  let rounded := mathRound (termLedgers / 17280 / 30)
  (max 1 (if rounded = 0 then 1 else rounded)).toNat

def portion (isLast : Bool) (raw remaining : ℚ) : ℚ :=
  if isLast then roundToCents remaining else roundToCents raw

/-- The iterations of the loop that are left, the last of them period `count`. -/
def scheduleFrom (count : Nat) (daysPerPeriod : ℚ) (raw : Shares) : Nat → Shares → List Row
  | 0,_ => []
  | left + 1,remaining =>
    let i := count - left
    let isLast := left = 0
    let principal := portion isLast raw.principal remaining.principal
    let interest := portion isLast raw.interest remaining.interest
    let fees := portion isLast raw.fees remaining.fees
    let remaining : Shares := ⟨roundToCents (remaining.principal - principal),
      roundToCents (remaining.interest - interest),roundToCents (remaining.fees - fees)⟩
    { period := i, dueDate := mathRound (daysPerPeriod * i), principal := principal
      interest := interest, fees := fees, total := roundToCents (principal + interest + fees)
      remainingBalance := max 0 (roundToCents remaining.principal) } ::
      scheduleFrom count daysPerPeriod raw left remaining

def buildRepaymentPreviewSchedule (principal interestRateBps termLedgers feeRateBps : ℚ) :
    Preview :=
  let totalInterest := roundToCents (principal * (interestRateBps / 10000))
  let totalFees := roundToCents (principal * (feeRateBps / 10000))
  let count := periodCount termLedgers
  { principal := roundToCents principal
    interestRateBps := interestRateBps
    termLedgers := termLedgers
    feeRateBps := feeRateBps
    totalInterest := totalInterest
    totalFees := totalFees
    totalDue := roundToCents (principal + totalInterest + totalFees)
    schedule := scheduleFrom count (termLedgers / 17280 / count)
      ⟨principal / count,totalInterest / count,totalFees / count⟩ count
      ⟨principal,totalInterest,totalFees⟩ }

/-- The columns have no negative entry and add up; the balance is what the portions so far leave. -/
structure Preview.AddsUp (p : Preview) : Prop where
  nonneg : ∀ row ∈ p.schedule, 0 ≤ row.principal ∧ 0 ≤ row.interest ∧ 0 ≤ row.fees
  principal : (p.schedule.map Row.principal).sum = p.principal
  interest : (p.schedule.map Row.interest).sum = p.totalInterest
  fees : (p.schedule.map Row.fees).sum = p.totalFees
  total : (p.schedule.map Row.total).sum = p.totalDue
  balance : p.schedule.map Row.remainingBalance =
    ((p.schedule.map Row.principal).scanl (· - ·) p.principal).tail
  falls : (p.schedule.map Row.remainingBalance).Pairwise (· ≥ ·)
  ends : (p.schedule.map Row.remainingBalance).getLast? = some 0

section

def Cents (x : ℚ) : Prop := ∃ c : Int, x = c / 100

lemma Cents.add {x y} : Cents x → Cents y → Cents (x + y) := by
  rintro ⟨a,rfl⟩ ⟨b,rfl⟩
  exact ⟨a + b,by push_cast; ring⟩

lemma Cents.sub {x y} : Cents x → Cents y → Cents (x - y) := by
  rintro ⟨a,rfl⟩ ⟨b,rfl⟩
  exact ⟨a - b,by push_cast; ring⟩

lemma cents_roundToCents (x : ℚ) : Cents (roundToCents x) := ⟨_,rfl⟩

lemma mathRound_intCast (n : Int) : mathRound n = n := by
  unfold mathRound
  rw [Int.floor_intCast_add]
  norm_num

lemma roundToCents_eq {x} : Cents x → roundToCents x = x := by
  rintro ⟨c,rfl⟩
  have hf : toFixed (c / 100) = c * 100000 := by
    have hs : (c / 100 * 10000000 : ℚ) = ((c * 100000 : Int) : ℚ) := by push_cast; ring
    have hn : (-(c / 100) * 10000000 : ℚ) = ((-(c * 100000) : Int) : ℚ) := by push_cast; ring
    unfold toFixed
    rw [hs,hn,mathRound_intCast,mathRound_intCast,neg_neg,ite_self]
  have hd : Decimal.roundDiv (c * 100000) 100000 .HalfEven = .ok c := by
    simp [Decimal.roundDiv,Contractlib.ensure,pure,Except.pure,bind,Except.bind]
  rw [roundToCents,hf,hd]
  rfl

lemma roundToCents_nonneg {x} (hx : 0 ≤ x) : 0 ≤ roundToCents x := by
  obtain ⟨q,hq,hr⟩ := @Decimal.roundDiv_spec (toFixed x) 100000 (by decide) .HalfEven
  have hf : 0 ≤ toFixed x := by
    rw [toFixed,if_neg hx.not_gt]
    exact Int.floor_nonneg.mpr (by positivity)
  have hp : (0 : ℚ) ≤ toFixed x / (100000 : Int) := by positivity
  have hl : (-1 : ℚ) < q := by linarith [(abs_le.mp hr.1).2]
  have hq0 : 0 ≤ q := by
    have : -1 < q := by exact_mod_cast hl
    omega
  rw [roundToCents,hq]
  exact div_nonneg (by exact_mod_cast hq0) (by norm_num)

variable {raw x : ℚ} {left : Nat}

/-- One column of the schedule: its portions, with `left` periods to go. -/
def column (raw : ℚ) : Nat → ℚ → List ℚ
  | 0,_ => []
  | left + 1,x => portion (left = 0) raw x ::
    column raw left (roundToCents (x - portion (left = 0) raw x))

def balances (raw : ℚ) : Nat → ℚ → List ℚ
  | 0,_ => []
  | left + 1,x =>
    let x := roundToCents (x - portion (left = 0) raw x)
    max 0 (roundToCents x) :: balances raw left x

lemma cents_portion (isLast) (raw x : ℚ) : Cents (portion isLast raw x) := by
  unfold portion
  split <;> exact cents_roundToCents _

lemma sum_column (hx : Cents x) : (column raw (left + 1) x).sum = x := by
  induction left generalizing x with
  | zero => simp [column,portion,roundToCents_eq hx]
  | succ left ih =>
    have hr := hx.sub (cents_portion (left + 1 = 0) raw x)
    rw [column,sum_cons,roundToCents_eq hr,ih hr]
    ring

lemma nonneg_column (hw : 0 ≤ roundToCents raw) (hx : Cents x) :
    (∀ p ∈ column raw (left + 1) x, 0 ≤ p) ↔ left * roundToCents raw ≤ x := by
  induction left generalizing x with
  | zero => simp [column,portion,roundToCents_eq hx]
  | succ left ih =>
    have hr := hx.sub (cents_roundToCents raw)
    have hp : portion (left + 1 = 0) raw x = roundToCents raw := by simp [portion]
    rw [column,hp,forall_mem_cons,roundToCents_eq hr,ih hr]
    push_cast
    constructor
    · rintro ⟨-,h⟩
      linarith
    · intro h
      exact ⟨hw,by linarith⟩

lemma balances_spec (hw : 0 ≤ roundToCents raw) (hx : Cents x) (hl : left * roundToCents raw ≤ x) :
    balances raw (left + 1) x = ((column raw (left + 1) x).scanl (· - ·) x).tail ∧
    (x :: balances raw (left + 1) x).Pairwise (· ≥ ·) ∧
    (balances raw (left + 1) x).getLast? = some 0 := by
  induction left generalizing x with
  | zero =>
    have hz : roundToCents 0 = 0 := roundToCents_eq ⟨0,by simp⟩
    have hs : 0 ≤ x := by simpa using hl
    simp [balances,column,portion,roundToCents_eq hx,hz,hs]
  | succ left ih =>
    have hr := hx.sub (cents_roundToCents raw)
    push_cast at hl
    have hl' : left * roundToCents raw ≤ x - roundToCents raw := by linarith
    have hs : 0 ≤ x - roundToCents raw := le_trans (by positivity) hl'
    have hp : portion (left + 1 = 0) raw x = roundToCents raw := by simp [portion]
    obtain ⟨hb,hf,he⟩ := ih hr hl'
    rw [balances,column]
    simp only [hp,roundToCents_eq hr,max_eq_right hs]
    refine ⟨?_,?_,?_⟩
    · rw [hb]
      cases column raw (left + 1) (x - roundToCents raw) <;> simp [scanl_cons]
    · refine hf.cons fun y hy => ?_
      obtain rfl | hy := mem_cons.mp hy
      · linarith
      · linarith [(pairwise_cons.mp hf).1 y hy]
    · rw [getLast?_cons,he]
      rfl

variable {count : Nat} {days : ℚ} {rawShares rem : Shares}

lemma columns_scheduleFrom : let rows := scheduleFrom count days rawShares left rem
    rows.map Row.principal = column rawShares.principal left rem.principal ∧
    rows.map Row.interest = column rawShares.interest left rem.interest ∧
    rows.map Row.fees = column rawShares.fees left rem.fees ∧
    rows.map Row.remainingBalance = balances rawShares.principal left rem.principal := by
  induction left generalizing rem with
  | zero => exact ⟨rfl,rfl,rfl,rfl⟩
  | succ left ih => simp [scheduleFrom,column,balances,ih]

lemma total_scheduleFrom : ∀ row ∈ scheduleFrom count days rawShares left rem,
    row.total = row.principal + row.interest + row.fees := by
  induction left generalizing rem with
  | zero => simp [scheduleFrom]
  | succ left ih =>
    rw [scheduleFrom,forall_mem_cons]
    exact ⟨roundToCents_eq (((cents_portion ..).add (cents_portion ..)).add (cents_portion ..)),ih⟩

/-- The portions before the last leave something for it. -/
def Leaves (count : Nat) (x : ℚ) : Prop := (count - 1) * roundToCents (x / count) ≤ x

lemma leaves_iff (hx : 0 ≤ x) (hc : Cents x) :
    Leaves (left + 1) x ↔ ∀ y ∈ column (x / (left + 1 : Nat)) (left + 1) x, 0 ≤ y := by
  rw [nonneg_column (roundToCents_nonneg (by positivity)) hc,Leaves]
  push_cast
  rw [add_sub_cancel_right]

end

lemma periodCount_pos (term : ℚ) : ∃ n, periodCount term = n + 1 :=
  ⟨periodCount term - 1,by simp only [periodCount]; omega⟩

/-- **Preview**: it adds up exactly where no column's shares exceed it before the last period. -/
theorem preview_adds_up_iff (cents : Nat) (interestRateBps termLedgers feeRateBps : ℚ)
    (hinterest : 0 ≤ interestRateBps) (hfee : 0 ≤ feeRateBps) :
    (buildRepaymentPreviewSchedule (cents / 100) interestRateBps termLedgers feeRateBps).AddsUp ↔
      Leaves (periodCount termLedgers) (cents / 100) ∧
      Leaves (periodCount termLedgers) (roundToCents (cents / 100 * (interestRateBps / 10000))) ∧
      Leaves (periodCount termLedgers) (roundToCents (cents / 100 * (feeRateBps / 10000))) := by
  obtain ⟨n,hn⟩ := periodCount_pos termLedgers
  generalize hp : (cents / 100 : ℚ) = p
  have hc : Cents p := ⟨cents,by rw [← hp]; push_cast; rfl⟩
  have hp0 : 0 ≤ p := hp ▸ by positivity
  have hi0 : 0 ≤ roundToCents (p * (interestRateBps / 10000)) := roundToCents_nonneg (by positivity)
  have hf0 : 0 ≤ roundToCents (p * (feeRateBps / 10000)) := roundToCents_nonneg (by positivity)
  simp only [buildRepaymentPreviewSchedule,hn]
  generalize hi : roundToCents (p * (interestRateBps / 10000)) = i at *
  generalize hf : roundToCents (p * (feeRateBps / 10000)) = f at *
  have hci : Cents i := hi ▸ cents_roundToCents _
  have hcf : Cents f := hf ▸ cents_roundToCents _
  rw [leaves_iff hp0 hc,leaves_iff hi0 hci,leaves_iff hf0 hcf]
  generalize hw : scheduleFrom _ _ _ _ _ = rows
  obtain ⟨hP,hI,hF,hB⟩ := hw ▸ columns_scheduleFrom
  have ht := hw ▸ total_scheduleFrom
  constructor
  · intro h
    simp only [← hP,← hI,← hF,forall_mem_map]
    exact ⟨fun row ho => (h.nonneg row ho).1,fun row ho => (h.nonneg row ho).2.1,
      fun row ho => (h.nonneg row ho).2.2⟩
  · rintro ⟨hp,hi,hf⟩
    have hr := roundToCents_nonneg (div_nonneg hp0 (Nat.cast_nonneg (n + 1)))
    obtain ⟨hb,ha,he⟩ :=
      balances_spec hr hc ((nonneg_column hr hc).mp hp)
    simp only [← hP,← hI,← hF,forall_mem_map] at hp hi hf
    have hs := congrArg sum (map_congr_left ht)
    rw [sum_map_add,sum_map_add,hP,hI,hF,sum_column hc,sum_column hci,sum_column hcf] at hs
    exact {
      nonneg := fun row ho => ⟨hp row ho,hi row ho,hf row ho⟩
      principal := by rw [hP,sum_column hc,roundToCents_eq hc]
      interest := by rw [hI,sum_column hci]
      fees := by rw [hF,sum_column hcf]
      total := by rw [hs,roundToCents_eq ((hc.add hci).add hcf)]
      balance := by rw [hB,hP,roundToCents_eq hc,hb]
      falls := by
        rw [hB]
        exact (pairwise_cons.mp ha).2
      ends := by rw [hB,he] }

/-- Fifteen cents over ten months: nine portions of two cents leave minus three for the last. -/
theorem preview_last_negative :
    ((buildRepaymentPreviewSchedule (15 / 100) 0 5184000 0).schedule.map Row.principal).getLast? =
    some (-3 / 100) := by
  decide +kernel

theorem preview_adds_up_quarter :
    (buildRepaymentPreviewSchedule ((25 : Nat) / 100) 0 5184000 0).AddsUp := by
  refine (preview_adds_up_iff 25 0 5184000 0 le_rfl le_rfl).mpr ⟨?_,?_,?_⟩ <;> unfold Leaves <;>
    decide +kernel

end DukaPay.Backend.RepaymentPreview
