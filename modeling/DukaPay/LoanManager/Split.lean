import DukaPay.LoanManager.Accrual
import Mathlib.Algebra.BigOperators.Fin
import DukaPay.Contractlib.Rounding

/-! A payment is split over the three parts of the debt in proportion. -/
namespace DukaPay
open Contractlib List Finset Function

namespace Loan

structure Allocation where
  payments : Fin 3 → Int
  remainders : Fin 3 → Int
  allocated : Int

def allocateShare (amount totalDebt : Int) (dues : Fin 3 → Int) (a : Allocation) (idx : Fin 3) :
    Res Allocation :=
  if dues idx ≤ 0 then
    pure a
  else do
    let scaled ← expect (i128.checkedMul amount (dues idx)) "repayment allocation overflow"
    let payment ←
      okOr (Money.roundDiv scaled totalDebt .Floor) (.panic "repayment allocation underflow")
    let back ← expect (i128.checkedMul payment totalDebt) "repayment allocation overflow"
    let remainder ← expect (i128.checkedSub scaled back) "repayment allocation underflow"
    let allocated ← expect (i128.checkedAdd a.allocated payment) "repayment allocation overflow"
    pure
      { payments := Function.update a.payments idx payment
        remainders := Function.update a.remainders idx remainder
        allocated := allocated }

/-- The part with the larger remainder of `selected` and `idx`, if `idx` may receive a unit. -/
def selectLarger (dues : Fin 3 → Int) (a : Allocation) (selected : Option (Fin 3)) (idx : Fin 3) :
    Option (Fin 3) :=
  if dues idx ≤ a.payments idx ∨ a.remainders idx < 0 then
    selected
  else
    match selected with
    | none => some idx
    | some current => if a.remainders current < a.remainders idx then some idx else some current

def allocateUnits (dues : Fin 3 → Int) : Nat → Allocation → Res Allocation
  | 0,a => pure a
  | unallocated + 1,a => do
    let idx ← expect ([0,1,2].foldl (selectLarger dues a) none) "repayment allocation exhausted"
    let payment ← expect (i128.checkedAdd (a.payments idx) 1) "repayment allocation overflow"
    allocateUnits dues unallocated
      { a with
        payments := Function.update a.payments idx payment
        remainders := Function.update a.remainders idx (-1) }

structure Split where
  principal : Int
  interest : Int
  lateFee : Int

def dues (principal : Int) (loan : Loan) : Fin 3 → Int :=
  ![principal,loan.accruedInterest,loan.accruedLateFee]

def proportionalRepaymentSplit (amount : Int) (loan : Loan) : Res Split := do
  let principal ← loan.remainingPrincipal
  let total ← loan.totalDebt
  if total = 0 then
    pure ⟨0,0,0⟩
  else do
    let a ← [0,1,2].foldlM (allocateShare amount total (loan.dues principal))
      ⟨fun _ => 0,fun _ => -1,0⟩
    let unallocated ← expect (i128.checkedSub amount a.allocated) "repayment allocation underflow"
    let a ← allocateUnits (loan.dues principal) unallocated.toNat a
    pure ⟨a.payments 0,a.payments 1,a.payments 2⟩

def applySplit (split : Split) (loan : Loan) : Res Loan := do
  let interestPaid ←
    expect (i128.checkedAdd loan.interestPaid split.interest) "interest paid overflow"
  let accruedInterest ←
    expect (i128.checkedSub loan.accruedInterest split.interest) "interest underflow"
  let lateFeePaid ←
    expect (i128.checkedAdd loan.lateFeePaid split.lateFee) "late fee paid overflow"
  let accruedLateFee ←
    expect (i128.checkedSub loan.accruedLateFee split.lateFee) "late fee underflow"
  let principalPaid ←
    expect (i128.checkedAdd loan.principalPaid split.principal) "principal paid overflow"
  pure { loan with
    interestPaid := interestPaid
    accruedInterest := accruedInterest
    lateFeePaid := lateFeePaid
    accruedLateFee := accruedLateFee
    principalPaid := principalPaid }

def paid (split : Split) (loan : Loan) : Loan :=
  { loan with
    interestPaid := loan.interestPaid + split.interest
    accruedInterest := loan.accruedInterest - split.interest
    lateFeePaid := loan.lateFeePaid + split.lateFee
    accruedLateFee := loan.accruedLateFee - split.lateFee
    principalPaid := loan.principalPaid + split.principal }

lemma remaining_paid (loan : Loan) (split) :
    (loan.paid split).remaining = loan.remaining - split.principal := by
  simp only [remaining,paid]
  omega

def applyDebtRecovery (amount : Int) (loan : Loan) : Res Loan :=
  if amount ≤ 0 then
    pure loan
  else do
    let split ← loan.proportionalRepaymentSplit amount
    loan.applySplit split

/-- The part `idx` is given its share of `amount`, rounded down. -/
def Allocation.share (amount total : Int) (dues : Fin 3 → Int) (a : Allocation) (idx : Fin 3) :
    Allocation :=
  if dues idx ≤ 0 then a
  else
    { payments := Function.update a.payments idx (amount * dues idx / total)
      remainders := Function.update a.remainders idx (amount * dues idx % total)
      allocated := a.allocated + amount * dues idx / total }

/-- Every part of the debt but those in `todo` was given its share. -/
structure Allocation.Shared (amount total : Int) (dues : Fin 3 → Int) (todo : List (Fin 3))
    (a : Allocation) : Prop where
  payments : ∀ idx, a.payments idx = if idx ∈ todo then 0 else amount * dues idx / total
  remainders : ∀ idx, a.remainders idx =
    if idx ∈ todo ∨ dues idx ≤ 0 then -1 else amount * dues idx % total
  allocated : a.allocated = ∑ idx, a.payments idx

lemma sum_update (f : Fin 3 → Int) (idx x) : ∑ i, update f idx x i = ∑ i, f i - f idx + x := by
  rw [sum_update_of_mem (mem_univ idx),← add_sum_erase _ f (mem_univ idx),sdiff_singleton_eq_erase]
  omega

variable {amt total : Int} {dues : Fin 3 → Int} {a a' : Allocation} {loan loan' : Loan}

lemma eq_of_allocateShare {idx} (htotal : 0 < total)
    (h : allocateShare amt total dues a idx = .ok a') : a' = a.share amt total dues idx := by
  unfold allocateShare at h
  unfold Allocation.share
  split at h
  · next hd =>
    cases h
    rw [if_pos hd]
  · next hd =>
    simp only [eq_ok,okOr_eq_ok] at h
    obtain ⟨_,⟨-,rfl⟩,pay,hp,_,⟨-,rfl⟩,_,⟨-,rfl⟩,_,⟨-,rfl⟩,rfl⟩ := h
    rw [if_neg hd,Money.roundDiv_floor htotal hp,Int.emod_def,mul_comm total]

lemma allocateShare_eq {idx} (htotal : 0 < total) (h0 : 0 ≤ amt) (hd : dues idx ≤ total)
    (hf : i128.Fits (amt * total)) (ha : i128.Fits (a.share amt total dues idx).allocated) :
    allocateShare amt total dues a idx = .ok (a.share amt total dues idx) := by
  unfold allocateShare
  unfold Allocation.share at ha ⊢
  split
  · rfl
  · next hp =>
    rw [if_neg hp] at ha
    have hn : 0 ≤ amt * dues idx := mul_nonneg h0 (by omega)
    have hl : amt * dues idx ≤ amt * total := mul_le_mul_of_nonneg_left hd h0
    have hs : i128.Fits (amt * dues idx) := ⟨le_trans (by decide) hn,hl.trans hf.2⟩
    have hb := Int.ediv_mul_le (amt * dues idx) htotal.ne'
    have hm := Int.emod_nonneg (amt * dues idx) htotal.ne'
    have hq : 0 ≤ amt * dues idx / total * total :=
      mul_nonneg (Int.ediv_nonneg hn htotal.le) htotal.le
    simp only [eq_ok,okOr_eq_ok]
    refine ⟨_,⟨hs,rfl⟩,_,Money.roundDiv_of_nonneg hn hs htotal,_,⟨?_,rfl⟩,_,⟨?_,?_⟩,_,⟨ha,rfl⟩,rfl⟩
    · exact ⟨le_trans (by decide) hq,hb.trans hs.2⟩
    · exact ⟨le_trans (by decide) (sub_nonneg.mpr hb),(sub_le_self _ hq).trans hs.2⟩
    · rw [Int.emod_def,mul_comm total]

lemma Allocation.Shared.share {idx todo}
    (ha : a.Shared amt total dues (idx :: todo)) (hi : idx ∉ todo) (hd : 0 ≤ dues idx) :
    (a.share amt total dues idx).Shared amt total dues todo := by
  have hy : a.payments idx = 0 := by simp [ha.payments]
  have hsum := ha.allocated
  unfold Allocation.share
  split
  · next hl =>
    have hz : dues idx = 0 := le_antisymm hl hd
    refine ⟨fun j => ?_,fun j => ?_,hsum⟩ <;> obtain rfl | hj := eq_or_ne j idx
    · simp [hy,hz]
    · simp [ha.payments,hj]
    · simp [ha.remainders,hz]
    · simp [ha.remainders,hj]
  · next hp =>
    refine ⟨fun j => ?_,fun j => ?_,?_⟩
    · obtain rfl | hj := eq_or_ne j idx
      · simp [hi]
      · simp [ha.payments,hj]
    · obtain rfl | hj := eq_or_ne j idx
      · simp [hi,hp]
      · simp [ha.remainders,hj]
    · simp only [sum_update]
      omega

lemma mem_parts (idx : Fin 3) : idx ∈ [0,1,2] := by
  revert idx
  decide

lemma shared_start (amt total : Int) (dues : Fin 3 → Int) :
    Allocation.Shared amt total dues [0,1,2] ⟨fun _ => 0,fun _ => -1,0⟩ :=
  ⟨fun idx => (if_pos (mem_parts idx)).symm,fun idx => (if_pos (.inl (mem_parts idx))).symm,by simp⟩

lemma selected_of_some {idxs : List (Fin 3)} (cur) :
    ∃ idx, idxs.foldl (selectLarger dues a) (some cur) = some idx ∧
    a.remainders cur ≤ a.remainders idx := by
  induction idxs generalizing cur with
  | nil => exact ⟨cur,rfl,le_rfl⟩
  | cons i idxs ih =>
    rw [foldl_cons,selectLarger]
    split
    · exact ih cur
    split
    · next ht =>
      obtain ⟨idx,hd,hl⟩ := ih i
      exact ⟨idx,hd,ht.le.trans hl⟩
    · exact ih cur

lemma selected_of_mem {idxs : List (Fin 3)} {i} (hi : i ∈ idxs) (hd : a.payments i < dues i)
    (hr : 0 ≤ a.remainders i) (selected) : ∃ idx, idxs.foldl (selectLarger dues a) selected =
    some idx ∧ a.remainders i ≤ a.remainders idx := by
  induction idxs generalizing selected with
  | nil => cases hi
  | cons j idxs ih =>
    rw [foldl_cons]
    obtain rfl | hj := mem_cons.mp hi
    · cases selected with
      | none =>
        rw [selectLarger,if_neg (by omega)]
        exact selected_of_some i
      | some curr =>
        rw [selectLarger,if_neg (by omega)]
        split
        · exact selected_of_some i
        · next hl =>
          obtain ⟨idx,hid,hg⟩ := @selected_of_some dues a idxs curr
          exact ⟨idx,hid,(not_lt.mp hl).trans hg⟩
    · exact ih hj _

/-- As long as no more units are left than there are positive remainders, the units go to parts with
a positive remainder, one each. -/
lemma allocateUnits_eq {n} (hnn : ∀ idx, 0 ≤ a.payments idx)
    (hd : ∀ idx, 0 < a.remainders idx → a.payments idx < dues idx)
    (hf : ∀ idx, i128.Fits (dues idx))
    (hn : n ≤ (Finset.univ.filter fun idx => 0 < a.remainders idx).card) :
    ∃ a', allocateUnits dues n a = .ok a' ∧ ∑ idx, a'.payments idx = ∑ idx, a.payments idx + n ∧
    ∀ idx, a'.payments idx = a.payments idx ∨
    0 < a.remainders idx ∧ a'.payments idx = a.payments idx + 1 := by
  induction n generalizing a with
  | zero => exact ⟨a,rfl,by simp,fun _ => .inl rfl⟩
  | succ n ih =>
    obtain ⟨i,hi⟩ := Finset.card_pos.mp (n.succ_pos.trans_le hn)
    replace hi : 0 < a.remainders i := (Finset.mem_filter.mp hi).2
    obtain ⟨idx,hs,hle⟩ := selected_of_mem (mem_parts i) (hd i hi) hi.le none
    have hr : 0 < a.remainders idx := by omega
    have hl := hd idx hr
    have hid := hnn idx
    have ha : i128.Fits (a.payments idx + 1) :=
      ⟨le_trans (by decide) (by omega : 0 ≤ a.payments idx + 1),
        (Int.add_one_le_of_lt hl).trans (hf idx).2⟩
    have hnn' : ∀ j, 0 ≤ update a.payments idx (a.payments idx + 1) j :=
      forall_update_iff _ (fun _ x => 0 ≤ x) |>.mpr ⟨by omega,fun j _ => hnn j⟩
    have hd' : ∀ j, 0 < update a.remainders idx (-1) j →
        update a.payments idx (a.payments idx + 1) j < dues j := by
      intro j
      obtain rfl | hj := eq_or_ne j idx
      · simp
      · simpa [hj] using hd j
    have he : (Finset.univ.filter fun j => 0 < update a.remainders idx (-1) j) =
        (Finset.univ.filter fun j => 0 < a.remainders j).erase idx := by
      ext j
      obtain rfl | hj := eq_or_ne j idx
      · simp
      · simp [hj]
    have hn' : n ≤ (Finset.univ.filter fun j => 0 < update a.remainders idx (-1) j).card := by
      rw [he,Finset.card_erase_of_mem (by simpa using hr)]
      omega
    obtain ⟨a',ha',hsum,hec⟩ := ih (a := { a with
        payments := update a.payments idx (a.payments idx + 1)
        remainders := update a.remainders idx (-1) }) hnn' hd' hn'
    refine ⟨a',?_,?_,fun j => ?_⟩
    · simp only [allocateUnits,hs,eq_ok]
      exact ⟨_,rfl,_,⟨ha,rfl⟩,ha'⟩
    · rw [hsum,sum_update]
      push_cast
      omega
    · obtain rfl | hj := eq_or_ne j idx
      · exact .inr ⟨hr,by simpa using hec j⟩
      · simpa [hj] using hec j

section
variable {todo : List (Fin 3)} (htotal : 0 < total) (hdues : ∀ idx, 0 ≤ dues idx)
  (hsum : ∑ idx, dues idx = total) (h0 : 0 ≤ amt)

include htotal hdues

lemma Allocation.Shared.payment (h0 : 0 ≤ amt) (hl : amt ≤ total)
    (ha : a.Shared amt total dues []) (idx) :
    a.payments idx = amt * dues idx / total ∧ 0 ≤ a.payments idx ∧ a.payments idx ≤ dues idx ∧
    (0 < a.remainders idx → amt * dues idx % total ≠ 0 ∧ a.payments idx < dues idx) := by
  have hs : 0 ≤ amt * dues idx := mul_nonneg h0 (hdues idx)
  have hb : amt * dues idx ≤ total * dues idx := mul_le_mul_of_nonneg_right hl (hdues idx)
  have hd := Int.mul_ediv_add_emod (amt * dues idx) total
  have hy := ha.payments idx
  have hr := ha.remainders idx
  simp only [not_mem_nil,false_or,if_false] at hy hr
  rw [← hy] at hd
  refine ⟨hy,?_,?_,fun hp => ?_⟩
  · exact hy ▸ Int.ediv_nonneg hs htotal.le
  · have hm := Int.emod_nonneg (amt * dues idx) htotal.ne'
    exact le_of_mul_le_mul_left (by omega) htotal
  · split at hr
    · omega
    · exact ⟨by omega,lt_of_mul_lt_mul_left (by omega : total * a.payments idx < _) htotal.le⟩

include hsum

lemma Allocation.Shared.leftover_le (ha : a.Shared amt total dues []) :
    amt - a.allocated ≤ (univ.filter fun idx => 0 < a.remainders idx).card := by
  refine le_of_mul_le_mul_right ?_ htotal
  have hs : amt * total = ∑ idx, amt * dues idx := by rw [← mul_sum,hsum]
  rw [sub_mul,hs,ha.allocated,sum_mul,← sum_sub_distrib,← nsmul_eq_mul,← sum_const,sum_filter]
  refine sum_le_sum fun idx _ => ?_
  have hv := Int.ediv_mul_add_emod (amt * dues idx) total
  have hm := Int.emod_lt_of_pos (amt * dues idx) htotal
  have hp := ha.payments idx
  have hr := ha.remainders idx
  simp only [not_mem_nil,false_or,if_false] at hp hr
  rw [hp]
  split at hr
  · next hd =>
    rw [le_antisymm hd (hdues idx)]
    simp only [mul_zero,Int.zero_ediv,zero_mul,sub_zero]
    split <;> omega
  · split <;> omega

include h0

lemma Allocation.Shared.allocated_le (ha : a.Shared amt total dues todo) :
    0 ≤ a.allocated ∧ a.allocated ≤ amt := by
  have hh : ∀ idx, 0 ≤ a.payments idx ∧ a.payments idx * total ≤ amt * dues idx := by
    intro idx
    have hs : 0 ≤ amt * dues idx := mul_nonneg h0 (hdues idx)
    rw [ha.payments]
    split
    · simpa using hs
    · exact ⟨Int.ediv_nonneg hs htotal.le,Int.ediv_mul_le _ htotal.ne'⟩
  rw [ha.allocated]
  refine ⟨Finset.sum_nonneg fun idx _ => (hh idx).1,le_of_mul_le_mul_right ?_ htotal⟩
  calc (∑ idx, a.payments idx) * total
    _ = ∑ idx, a.payments idx * total := Finset.sum_mul ..
    _ ≤ ∑ idx, amt * dues idx := Finset.sum_le_sum fun idx _ => (hh idx).2
    _ = amt * total := by rw [← Finset.mul_sum,hsum]

lemma exists_shares (he : amt ≤ total) (hf : i128.Fits total) (hp : i128.Fits (amt * total))
    : ∃ a, [0,1,2].foldlM (allocateShare amt total dues) ⟨fun _ => 0,fun _ => -1,0⟩ = .ok a := by
  have hd : ∀ idx, dues idx ≤ total := fun idx =>
    hsum ▸ single_le_sum (fun j _ => hdues j) (mem_univ idx)
  have hl : ∀ {todo a}, Allocation.Shared amt total dues todo a → i128.Fits a.allocated := by
    intro todo a ha
    obtain ⟨hn,hm⟩ := ha.allocated_le htotal hdues hsum h0
    exact ⟨le_trans (by decide) hn,(hm.trans he).trans hf.2⟩
  have s1 := (shared_start amt total dues).share (by decide) (hdues 0)
  have s2 := s1.share (by decide) (hdues 1)
  have s3 := s2.share (by decide) (hdues 2)
  simp only [foldlM_cons,foldlM_nil,eq_ok]
  exact ⟨_,_,allocateShare_eq htotal h0 (hd 0) hp (hl s1),
    _,allocateShare_eq htotal h0 (hd 1) hp (hl s2),
    _,allocateShare_eq htotal h0 (hd 2) hp (hl s3),rfl⟩

/-- **Largest remainders**: once the shares are given, the units left over can be given too, and
every part of the debt gets its share rounded down or up. -/
lemma exists_units (hle : amt ≤ total) (hf : i128.Fits total)
    (h : [0,1,2].foldlM (allocateShare amt total dues) ⟨fun _ => 0,fun _ => -1,0⟩ = .ok a) :
    i128.Fits (amt - a.allocated) ∧
    ∃ a', allocateUnits dues (amt - a.allocated).toNat a = .ok a' ∧
    ∑ idx, a'.payments idx = amt ∧ ∀ idx, 0 ≤ a'.payments idx ∧
    a'.payments idx ≤ dues idx ∧ (a'.payments idx = ⌊((amt * dues idx : Int) : ℚ) / total⌋ ∨
    a'.payments idx = ⌈((amt * dues idx : Int) : ℚ) / total⌉) := by
  simp only [foldlM_cons,foldlM_nil,eq_ok] at h
  obtain ⟨_,h1,_,h2,_,h3,rfl⟩ := h
  cases eq_of_allocateShare htotal h1
  cases eq_of_allocateShare htotal h2
  cases eq_of_allocateShare htotal h3
  have s1 := (shared_start amt total dues).share (by decide) (hdues 0)
  have ha := (s1.share (by decide) (hdues 1)).share (by decide) (hdues 2)
  generalize Allocation.share amt total dues _ 2 = a at ha ⊢
  obtain ⟨hn,hl⟩ := ha.allocated_le htotal hdues hsum h0
  have hlf := ha.leftover_le htotal hdues hsum
  have hy := ha.payment htotal hdues h0 hle
  have hd : ∀ idx, i128.Fits (dues idx) := fun idx => ⟨le_trans (by decide) (hdues idx),
    (hsum ▸ single_le_sum (fun j _ => hdues j) (mem_univ idx)).trans hf.2⟩
  obtain ⟨a',ha',hs',he⟩ := allocateUnits_eq (n := (amt - a.allocated).toNat)
    (fun idx => (hy idx).2.1) (fun idx hi => ((hy idx).2.2.2 hi).2) hd (by omega)
  refine ⟨⟨le_trans (by decide) (sub_nonneg.mpr hl),by have := hf.2; omega⟩,a',ha',?_,fun idx => ?_⟩
  · rw [hs',← ha.allocated]
    omega
  · obtain ⟨hfl,ho,hle,hr⟩ := hy idx
    rw [floor_intCast_div _ htotal,← hfl]
    obtain hs | ⟨hp,hon⟩ := he idx
    · rw [hs]
      exact ⟨ho,hle,.inl rfl⟩
    obtain ⟨hm,ht⟩ := hr hp
    rw [ceil_intCast_div htotal hm,← hfl,hon]
    exact ⟨by omega,ht,.inr rfl⟩

end

structure Split.Covers (split : Split) (amount : Int) (loan : Loan) : Prop where
  principal_nonneg : 0 ≤ split.principal
  principal_le : split.principal ≤ loan.remaining
  interest_nonneg : 0 ≤ split.interest
  interest_le : split.interest ≤ loan.accruedInterest
  lateFee_nonneg : 0 ≤ split.lateFee
  lateFee_le : split.lateFee ≤ loan.accruedLateFee
  sum_eq : split.principal + split.interest + split.lateFee = amount

lemma sum_dues (loan : Loan) : ∑ idx, loan.dues loan.remaining idx = loan.debt :=
  Fin.sum_univ_three _

lemma dues_nonneg (hp : 0 ≤ loan.remaining) (hn : 0 ≤ loan.accruedInterest)
    (hf : 0 ≤ loan.accruedLateFee) (idx) : 0 ≤ loan.dues loan.remaining idx := by
  match idx with
  | 0 => exact hp
  | 1 => exact hn
  | 2 => exact hf

lemma covers_of_proportionalRepaymentSplit {split} (hr : loan.InRange)
    (h0 : 0 < amt) (hl : amt ≤ loan.debt)
    (h : loan.proportionalRepaymentSplit amt = .ok split) : split.Covers amt loan := by
  simp only [proportionalRepaymentSplit,bind_eq_ok] at h
  obtain ⟨_,hp,_,htotal,h⟩ := h
  cases eq_of_remainingPrincipal hp
  obtain ⟨hf,rfl⟩ := eq_of_totalDebt htotal
  rw [if_neg (by omega)] at h
  simp only [eq_ok] at h
  obtain ⟨a,hs,_,⟨-,rfl⟩,a',ha',rfl⟩ := h
  have hdues := dues_nonneg hr.remaining_nonneg hr.accruedInterest_nonneg hr.accruedLateFee_nonneg
  obtain ⟨-,_,hu,hsum,he⟩ := exists_units (by omega) hdues (sum_dues loan) h0.le hl hf hs
  cases ha'.symm.trans hu
  rw [Fin.sum_univ_three] at hsum
  exact ⟨(he 0).1,(he 0).2.1,(he 1).1,(he 1).2.1,(he 2).1,(he 2).2.1,hsum⟩

lemma eq_of_applySplit {split} (h : loan.applySplit split = .ok loan') :
    loan' = loan.paid split := by
  simp only [applySplit,eq_ok] at h
  obtain ⟨_,⟨-,rfl⟩,_,⟨-,rfl⟩,_,⟨-,rfl⟩,_,⟨-,rfl⟩,_,⟨-,rfl⟩,rfl⟩ := h
  rfl

lemma covers_of_applyDebtRecovery (hr : loan.InRange) (h0 : 0 ≤ amt)
    (hl : amt ≤ loan.debt) (h : loan.applyDebtRecovery amt = .ok loan') :
    ∃ split, split.Covers amt loan ∧ loan' = loan.paid split := by
  unfold applyDebtRecovery at h
  split at h
  · next hz =>
    cases h
    refine ⟨⟨0,0,0⟩,⟨le_refl 0,hr.remaining_nonneg,le_refl 0,hr.accruedInterest_nonneg,
      le_refl 0,hr.accruedLateFee_nonneg,by simp only; omega⟩,?_⟩
    simp [paid]
  · next hp =>
    simp only [bind_eq_ok] at h
    obtain ⟨split,hs,h⟩ := h
    exact ⟨split,covers_of_proportionalRepaymentSplit hr (by omega) hl hs,eq_of_applySplit h⟩

lemma amount_of_applyDebtRecovery (h : loan.applyDebtRecovery amt = .ok loan') :
    loan'.amount = loan.amount := by
  unfold applyDebtRecovery at h
  split at h
  · cases h
    rfl
  simp only [bind_eq_ok] at h
  obtain ⟨split,-,h⟩ := h
  rw [eq_of_applySplit h]
  rfl

lemma Split.Covers.inRange {split : Split} (hc : split.Covers amt loan)
    (hr : loan.InRange) : (loan.paid split).InRange := by
  obtain ⟨_,p1,_,_,_,_,-⟩ := hc
  obtain ⟨r1,_,_,_,_,r6,r7,r8⟩ := hr
  unfold remaining at p1
  refine ⟨r1,?_,?_,?_,?_,r6,r7,r8⟩ <;> simp only [paid] <;> omega

end Loan

end DukaPay
