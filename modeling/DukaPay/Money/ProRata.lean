import DukaPay.Money.Rounding
import DukaPay.Contractlib.Apportion

/-! The contract and the backend split a total by largest remainders. -/
namespace DukaPay
open Contractlib IntType List Option Apportion

namespace Money

/-- How `split_pro_rata` stops early: with an error that it returns, or at an `unwrap` or `expect`
of nothing. -/
inductive SplitFault
  | error (e : MathError)
  | panic (message : String)
  deriving DecidableEq

def sumWeights (weights : List Int) : Except SplitFault Int :=
  weights.foldlM (fun weightSum w => do
    ensure (0 ≤ w) (.error .DriftDetected)
    orFail (i128.checkedAdd weightSum w) (.error .Overflow)) 0

structure FirstPass where
  parts : List Int := []
  remainders : List (Nat × Int) := []
  allocated : Int := 0

def allocate (total weightSum : Int) (pass : FirstPass) (entry : Int × Nat) :
    Except SplitFault FirstPass := do
  let (w,idx) := entry
  let numerator ← orFail (i128.checkedMul total w) (.error .Overflow)
  let floorPart := numerator.tdiv weightSum
  let remainder := numerator.tmod weightSum
  let allocated ← orFail (i128.checkedAdd pass.allocated floorPart) (.error .Overflow)
  pure ⟨pass.parts ++ [floorPart],pass.remainders ++ [(idx,remainder)],allocated⟩

variable (remainders : List (Nat × Int))

/-- One round of the inner loop of the selection sort, on `best_idx` and `best_remainder`. -/
def consider (used : List Bool) (best : Option Nat × Int)
    (i : Nat) : Option Nat × Int :=
  if used.getD i false then best
  else
    let (origIdx,rem) := remainders.getD i (0,0)
    match compare rem best.2 with
    | .gt => (some i,rem)
    | .eq =>
      match best.1 with
      | some curBest =>
        if origIdx < (remainders.getD curBest (0,0)).1 then (some i,best.2) else best
      | none => best
    | .lt => best

def sortRound (acc : List (Nat × Int) × List Bool) :
    Except SplitFault (List (Nat × Int) × List Bool) := do
  let (bestIdx,_) := (List.range remainders.length).foldl (consider remainders acc.2) (none,-1)
  let chosen ← orFail bestIdx (.panic "remainder_count entries remain")
  pure (acc.1 ++ [remainders.getD chosen (0,0)],acc.2.set chosen true)

def sortRemainders : Except SplitFault (List (Nat × Int)) := do
  let (sorted,_) ← (List.range remainders.length).foldlM (fun acc _ => sortRound remainders acc)
    ([],List.replicate remainders.length false)
  pure sorted

def handOut (sorted : List (Nat × Int)) (remainderCount : Nat) :
    Nat → Nat → List Int → Except SplitFault (List Int)
  | 0,_,parts => pure parts
  | leftover + 1,i,parts => do
    let (origIdx,_) ← orFail sorted[i]? (.panic "unwrap")
    let current ← orFail parts[origIdx]? (.panic "unwrap")
    let next ← orFail (i128.checkedAdd current 1) (.error .Overflow)
    handOut sorted remainderCount leftover (if i + 1 ≥ remainderCount then 0 else i + 1)
      (parts.set origIdx next)

def splitProRata (total : Int) (weights : List Int) : Except SplitFault (List Int) :=
  if weights.length = 0 then
    if total = 0 then pure [] else .error (.error .DriftDetected)
  else do
    let weightSum ← sumWeights weights
    if weightSum = 0 then
      if total = 0 then pure (List.replicate weights.length 0) else .error (.error .DriftDetected)
    else do
      let pass ← weights.zipIdx.foldlM (allocate total weightSum) {}
      let leftover ← orFail (i128.checkedSub total pass.allocated) (.error .Overflow)
      ensure (0 ≤ leftover) (.error .DriftDetected)
      let sorted ← sortRemainders pass.remainders
      handOut sorted pass.remainders.length leftover.toNat 0 pass.parts

end Money

namespace Decimal

structure FirstPass where
  parts : List Int := []
  remainders : List Int := []
  allocated : Int := 0

def allocate (total weightSum : Int) (pass : FirstPass) (w : Int) :
    Except MoneyError FirstPass := do
  let numerator := total * w
  let part ← roundDiv numerator weightSum .Floor
  pure ⟨pass.parts ++ [part],pass.remainders ++ [numerator - part * weightSum],
    pass.allocated + part⟩

/-- One round of the search for the largest unused remainder, on `bestIdx` and `bestRemainder`. -/
def consider (remainders : List Int) (used : List Bool) (best : Option Nat × Int) (i : Nat) :
    Option Nat × Int :=
  if used.getD i false then best
  else
    let r := remainders.getD i 0
    if r > best.2 then (some i,r) else best

/-- The loop that hands out the units that remain. With nothing unused the index stays `-1`, and
adding to `parts[-1]` throws. -/
def handOut (remainders : List Int) : Nat → List Bool → List Int → Except MoneyError (List Int)
  | 0,_,parts => pure parts
  | remaining + 1,used,parts => do
    let (best,_) := (List.range remainders.length).foldl (consider remainders used) (none,-1)
    let bestIdx ← orFail best ⟨"Cannot mix BigInt and other types"⟩
    let current ← orFail parts[bestIdx]? ⟨"Cannot mix BigInt and other types"⟩
    handOut remainders remaining (used.set bestIdx true) (parts.set bestIdx (current + 1))

def splitProRata (total : Int) (weights : List Int) : Except MoneyError (List Int) := do
  ensure (¬ total < 0) ⟨"total must be non-negative"⟩
  if weights.length = 0 then
    if total = 0 then pure []
    else .error ⟨"cannot split a nonzero total across zero weights"⟩
  else do
    ensure (¬ weights.any (· < 0)) ⟨"weights must be non-negative"⟩
    let weightSum := weights.foldl (· + ·) 0
    if weightSum = 0 then
      if total = 0 then pure (weights.map fun _ => 0)
      else .error ⟨"cannot split a nonzero total across zero total weight"⟩
    else do
      let pass ← weights.foldlM (allocate total weightSum) {}
      let leftover := total - pass.allocated
      ensure (¬ (leftover < 0 ∨ leftover ≥ weights.length))
        ⟨"drift detected while splitting pro-rata amounts"⟩
      handOut pass.remainders leftover.toNat (List.replicate weights.length false) pass.parts

end Decimal

lemma set_eq_raise {pts i cur} (h : pts[i]? = some cur) : pts.set i (cur + 1) = raise pts [i] := by
  show _ = pts.modify i (· + 1)
  rw [modify_eq_set_getElem?,h]
  rfl

namespace Money
variable {remainders : List (Nat × Int)} {key : Nat → Int} {n : Nat}

def Indexed (remainders : List (Nat × Int)) (key : Nat → Int) (n : Nat) : Prop :=
  remainders = (List.range n).map fun i => (i,key i)

variable (h : Indexed remainders key n)

include h

lemma Indexed.getD {i} (hi : i < n) : remainders.getD i (0,0) = (i,key i) := by
  rw [h]
  simp [hi]

lemma Indexed.length : remainders.length = n := by
  rw [h]
  simp

lemma consider_standing (hk : ∀ i, 0 ≤ key i) (ch) {i} (hi : i < n) :
    consider remainders (marks n ch) (standing key (fun i => !ch.contains i) i) i =
    standing key (fun i => !ch.contains i) (i + 1) := by
  rw [standing_succ (hk i),consider,getD_marks hi,h.getD hi]
  by_cases hu : ch.contains i
  · rw [if_pos hu,if_neg]
    rintro ⟨hf,-⟩
    rw [hu] at hf
    cases hf
  rw [if_neg hu]
  simp only [hu,Bool.not_false,true_and]
  split
  · next hg => rw [if_pos (compare_gt_iff_gt.mp hg)]
  · next he =>
    rw [compare_eq_iff_eq] at he
    rw [if_neg he.le.not_gt]
    split
    · next cur hc =>
      rw [standing_fst] at hc
      have hl := (leader_spec hc).1
      rw [h.getD (by omega),if_neg (by omega)]
    · rfl
  · next hl => rw [if_neg (compare_lt_iff_lt.mp hl).le.not_gt]

lemma sortRound_ranking (hy : ∀ i, 0 ≤ key i) {k} (hk : k < n) :
    sortRound remainders ((ranking key n k).map fun i => (i,key i),marks n (ranking key n k)) =
    .ok ((ranking key n (k + 1)).map fun i => (i,key i),marks n (ranking key n (k + 1))) := by
  have hs : (ranking key n k).length < n := by
    rw [length_ranking hk.le]
    exact hk
  obtain ⟨_,hj⟩ := exists_leader_of_lt key hs
  have hf := foldl_range_eq_standing fun i hi =>
    consider_standing h hy (ranking key n k) (i := i) hi
  simp only [sortRound,h.length,hf,standing_fst,hj,ranking,toList_some,
    map_append,map_cons,map_nil,← set_marks]
  rw [← h.getD (leader_spec hj).1]
  rfl

lemma sortRemainders_eq (hy : ∀ i, 0 ≤ key i) :
    sortRemainders remainders = .ok ((ranking key n n).map fun i => (i,key i)) := by
  -- the rounds walk through the ranking
  have hr : ∀ k ≤ n, (List.range k).foldlM (fun acc _ => sortRound remainders acc)
      (([] : List (Nat × Int)),List.replicate n false) =
        .ok ((ranking key n k).map fun i => (i,key i),marks n (ranking key n k)) := by
    intro k hk
    induction k with
    | zero =>
      rw [replicate_eq_marks]
      rfl
    | succ k ih =>
      rw [range_succ,foldlM_append,ih (by omega)]
      have hn := sortRound_ranking h hy (by omega : k < n)
      simp only [foldlM_cons,foldlM_nil,bind_pure]
      exact hn
  rw [sortRemainders,h.length,hr n le_rfl]
  rfl

omit h

lemma handOut_eq {srt : List (Nat × Int)} {k i} {pts : List Int} (hk : i + k ≤ srt.length)
    (hd : ∀ e ∈ srt, e.1 < pts.length) (hr : ∀ p ∈ pts, i128.lo ≤ p ∧ p + k ≤ i128.hi) :
    handOut srt srt.length k i pts = .ok (raise pts (((srt.drop i).take k).map Prod.fst)) := by
  induction k generalizing i pts with
  | zero => rfl
  | succ k ih =>
    have hi : i < srt.length := by omega
    have hl := hd srt[i] (getElem_mem hi)
    obtain ⟨_,hh⟩ := hr _ (getElem_mem hl)
    have hf : i128.Fits (pts[srt[i].1] + 1) := by
      push_cast at hh
      exact ⟨by omega,by omega⟩
    have ht : pts.set srt[i].1 (pts[srt[i].1] + 1) = raise pts [srt[i].1] :=
      set_eq_raise (getElem?_eq_getElem hl)
    rw [handOut,getElem?_eq_getElem hi]
    simp only [orFail,getElem?_eq_getElem hl,checkedAdd,check_of_fits hf,ht,bind,Except.bind]
    rw [drop_eq_getElem_cons hi,take_succ_cons,map_cons]
    rcases Nat.eq_zero_or_pos k with rfl | hs
    · rfl
    rw [if_neg (by omega),ih (by omega)]
    · rfl
    · intro e he
      rw [length_raise]
      exact hd e he
    · intro p hp
      obtain ⟨j,hj⟩ := getElem?_of_mem hp
      rw [getElem?_raise,map_eq_some_iff] at hj
      obtain ⟨p',hp',rfl⟩ := hj
      obtain ⟨_,hh'⟩ := hr p' (mem_of_getElem? hp')
      have hc : [srt[i].1].count j ≤ 1 := by
        rw [count_singleton]
        split <;> omega
      push_cast at hh'
      omega

variable {wts : List Int} {total : Int}

lemma sumWeights_eq (hws : ∀ w ∈ wts, 0 ≤ w) : sumWeights wts =
    if i128.Fits wts.sum then .ok wts.sum else .error (.error .Overflow) := by
  -- the loop, from a sum that fits
  have hl : ∀ acc, 0 ≤ acc → i128.Fits acc → (∀ w ∈ wts, 0 ≤ w) → wts.foldlM (fun ws w => do
        ensure (0 ≤ w) (SplitFault.error .DriftDetected)
        orFail (i128.checkedAdd ws w) (.error .Overflow)) acc =
      if i128.Fits (acc + wts.sum) then .ok (acc + wts.sum)
      else .error (.error .Overflow) := by
    clear hws
    induction wts with
    | nil =>
      intro acc _ hf _
      rw [sum_nil,add_zero,if_pos hf]
      rfl
    | cons w wts ih =>
      intro acc hc hf ha
      have hw : 0 ≤ w := ha w (mem_cons_self ..)
      have hr : ∀ v ∈ wts, 0 ≤ v := fun v hv => ha v (mem_cons_of_mem w hv)
      have hs : 0 ≤ wts.sum := sum_nonneg hr
      rw [foldlM_cons,sum_cons,← add_assoc]
      by_cases hn : i128.Fits (acc + w)
      · simp only [ensure,if_pos hw,orFail,checkedAdd,check_of_fits hn]
        exact ih (acc + w) (by omega) hn hr
      have ho : ¬ i128.Fits (acc + w + wts.sum) := by
        intro h
        exact hn ⟨hf.1.trans (by omega),le_trans (by omega) h.2⟩
      rw [if_neg ho]
      simp only [ensure,if_pos hw,orFail,checkedAdd,check,if_neg hn]
      rfl
  have ht := hl 0 le_rfl (by decide) hws
  rw [zero_add] at ht
  exact ht

lemma foldlM_allocate {W} (ht : 0 ≤ total) (hW : 0 < W)
    (hws : ∀ w ∈ wts, 0 ≤ w ∧ i128.Fits (total * w)) (start) {pass : FirstPass}
    (ha : 0 ≤ pass.allocated)
    (hm : pass.allocated + (wts.map fun w => total * w / W).sum ≤ i128.hi) :
    (wts.zipIdx start).foldlM (allocate total W) pass =
    .ok ⟨pass.parts ++ wts.map fun w => total * w / W,
    pass.remainders ++ (wts.zipIdx start).map fun e => (e.2,total * e.1 % W),
    pass.allocated + (wts.map fun w => total * w / W).sum⟩ := by
  induction wts generalizing start pass with
  | nil => simp [pure,Except.pure]
  | cons w wts ih =>
    obtain ⟨hw,hf⟩ := hws w (mem_cons_self ..)
    have hr : ∀ v ∈ wts, 0 ≤ v ∧ i128.Fits (total * v) := fun v hv =>
      hws v (mem_cons_of_mem w hv)
    have hp : 0 ≤ total * w := mul_nonneg ht hw
    have hl : 0 ≤ total * w / W := Int.ediv_nonneg hp hW.le
    have hs : 0 ≤ (wts.map fun w => total * w / W).sum := by
      apply sum_nonneg
      intro x hx
      obtain ⟨v,hv,rfl⟩ := mem_map.mp hx
      exact Int.ediv_nonneg (mul_nonneg ht (hr v hv).1) hW.le
    rw [map_cons,sum_cons] at hm
    have hn : i128.Fits (pass.allocated + total * w / W) :=
      ⟨le_trans (by decide) (add_nonneg ha hl),by omega⟩
    have hrn : allocate total W pass (w,start) =
        .ok ⟨pass.parts ++ [total * w / W],pass.remainders ++ [(start,total * w % W)],
          pass.allocated + total * w / W⟩ := by
      simp only [allocate,orFail,checkedMul,checkedAdd,
        check_of_fits hf,Int.tdiv_eq_ediv_of_nonneg hp,
        Int.tmod_eq_emod_of_nonneg hp,bind,Except.bind,check_of_fits hn]
      rfl
    rw [zipIdx_cons,foldlM_cons,hrn]
    refine (ih hr (start + 1) (add_nonneg ha hl) (by simpa [add_assoc] using hm)).trans ?_
    simp [append_assoc,add_assoc]

lemma indexed_remainders (total) (wts : List Int) :
    Indexed (wts.zipIdx.map fun e => (e.2,total * e.1 % wts.sum))
    (remainder total wts) wts.length := by
  apply ext_getElem?
  intro i
  by_cases hi : i < wts.length
  · simp [remainder,hi]
  · simp [hi]

lemma le_of_products_fit (ht : 0 ≤ total) (hs : ∀ w ∈ wts, 0 ≤ w ∧ i128.Fits (total * w))
    (hW : 0 < wts.sum) : total ≤ i128.hi := by
  obtain ⟨w,hw,hp⟩ : ∃ w ∈ wts, 0 < w := by
    by_contra hn
    have hz : wts.sum = 0 := by
      apply sum_eq_zero
      intro w hw
      by_contra he
      exact hn ⟨w,hw,lt_of_le_of_ne (hs w hw).1 (Ne.symm he)⟩
    omega
  have hl : total ≤ total * w := le_mul_of_one_le_right ht hp
  exact hl.trans (hs w hw).2.2

lemma floors_nonneg (ht : 0 ≤ total) (hs : ∀ w ∈ wts, 0 ≤ w ∧ i128.Fits (total * w))
    (hW : 0 < wts.sum) : ∀ f ∈ floors total wts, 0 ≤ f := by
  intro f hf
  obtain ⟨w,hw,rfl⟩ := mem_map.mp hf
  exact Int.ediv_nonneg (mul_nonneg ht (hs w hw).1) hW.le

lemma handOut_ranking (ht : 0 ≤ total)
    (hw : ∀ w ∈ wts, 0 ≤ w ∧ i128.Fits (total * w)) (hW : 0 < wts.sum) :
    handOut ((ranking (remainder total wts) wts.length wts.length).map
    fun i => (i,remainder total wts i))
    wts.length (leftover total wts).toNat 0 (floors total wts) =
    .ok (apportion total wts) := by
  have hfl := floors_nonneg ht hw hW
  have hl := leftover_nonneg total hW
  have hln : (leftover total wts).toNat ≤ wts.length := toNat_leftover_le total hW
  have hid : ∀ e ∈ (ranking (remainder total wts) wts.length
      wts.length).map fun i => (i,remainder total wts i),
      e.1 < (floors total wts).length := by
    intro e he
    obtain ⟨i,hi,rfl⟩ := List.mem_map.mp he
    simpa [floors] using lt_of_mem_ranking le_rfl hi
  have hr : ∀ f ∈ floors total wts, i128.lo ≤ f ∧ f + (leftover total wts).toNat ≤ i128.hi := by
    intro f hf
    -- a floor and what is left over are at most the total
    have hhi := le_of_products_fit ht hw hW
    have hle := List.single_le_sum hfl f hf
    have hn := hfl f hf
    rw [leftover] at hl ⊢
    exact ⟨le_trans (by decide) hn,by omega⟩
  have ho := handOut_eq (i := 0) (by simpa [length_ranking le_rfl] using hln) hid hr
  rw [List.drop_zero,← List.map_take,take_ranking hln le_rfl,List.map_map,List.length_map,
    length_ranking le_rfl] at ho
  exact ho.trans (congrArg (fun ws => Except.ok (raise _ ws)) (List.map_id _))

/-- **The contract's split**: with weights of a positive sum that fits, and products that fit, it
returns the apportionment. -/
lemma splitProRata_of_pos (htt : 0 ≤ total) (hws : ∀ w ∈ wts, 0 ≤ w ∧ i128.Fits (total * w))
    (hW : 0 < wts.sum) (hf : i128.Fits wts.sum) : splitProRata total wts = .ok
    (apportion total wts) := by
  have hln : wts.length ≠ 0 := by
    intro hz
    rw [length_eq_zero_iff] at hz
    rw [hz] at hW
    exact lt_irrefl _ hW
  have ht := leftover_nonneg total hW
  have hh := le_of_products_fit htt hws hW
  have hs := sum_nonneg (floors_nonneg htt hws hW)
  have hl : leftover total wts = total - (floors total wts).sum := rfl
  have hfi : i128.Fits (leftover total wts) := ⟨le_trans (by decide) ht,by omega⟩
  have hr : ({} : FirstPass).allocated + (floors total wts).sum ≤ i128.hi := by
    rw [zero_add]
    omega
  have hp := foldlM_allocate htt hW hws 0 le_rfl hr
  simp only [nil_append,zero_add] at hp
  have hn := indexed_remainders total wts
  -- now the function, statement by statement
  rw [splitProRata,if_neg hln,sumWeights_eq fun w hw => (hws w hw).1,if_pos hf]
  show (if wts.sum = 0 then _ else _) = _
  rw [if_neg hW.ne',hp]
  show (orFail (i128.check (leftover total wts)) _ >>= _) = _
  rw [check_of_fits hfi]
  show (ensure (0 ≤ leftover total wts) _ >>= _) = _
  rw [ensure,if_pos ht]
  show (sortRemainders _ >>= _) = _
  rw [sortRemainders_eq hn fun i => remainder_nonneg total hW i]
  show handOut _ _ _ _ _ = _
  rw [hn.length]
  exact handOut_ranking htt hws hW

end Money

namespace Decimal
variable {remainders : List Int} {key : Nat → Int} {n : Nat}

lemma consider_standing (h : ∀ i < n, remainders.getD i 0 = key i) (hk : ∀ i, 0 ≤ key i) (ch) {i}
    (hi : i < n) : consider remainders (marks n ch) (standing key (fun i => !ch.contains i) i) i =
    standing key (fun i => !ch.contains i) (i + 1) := by
  rw [standing_succ (hk i),consider,getD_marks hi,h i hi]
  by_cases hu : ch.contains i
  · rw [if_pos hu,if_neg]
    rintro ⟨hf,-⟩
    rw [hu] at hf
    cases hf
  · simp only [hu,Bool.not_false,true_and,Bool.false_eq_true,if_false,gt_iff_lt]

lemma handOut_eq (h : ∀ i < n, remainders.getD i 0 = key i) (hk : ∀ i, 0 ≤ key i)
    (hl : remainders.length = n) {k m} (hkm : m + k ≤ n) {pts : List Int} (hp : pts.length = n) :
    handOut remainders k (marks n (ranking key n m)) pts =
    .ok (raise pts ((ranking key n (m + k)).drop m)) := by
  induction k generalizing m pts with
  | zero =>
    rw [add_zero,List.drop_of_length_le (length_ranking (by omega)).le]
    rfl
  | succ k ih =>
    have hs : (ranking key n m).length < n := by
      rw [length_ranking (by omega)]
      omega
    obtain ⟨j,hj⟩ := exists_leader_of_lt key hs
    have hn := (leader_spec hj).1
    have hx : ranking key n (m + 1) = ranking key n m ++ [j] := by
      rw [ranking,hj,Option.toList_some]
    have hd : (ranking key n (m + (k + 1))).drop m =
        j :: (ranking key n (m + 1 + k)).drop (m + 1) := by
      have htk : (ranking key n (m + 1 + k)).take (m + 1) = ranking key n (m + 1) :=
        take_ranking (Nat.le_add_right (m + 1) k) (by omega)
      have hg : (ranking key n (m + 1 + k))[m]? = some j := by
        have hm : m < m + 1 := Nat.lt_succ_self m
        rw [← List.getElem?_take_of_lt hm,htk,hx,
          List.getElem?_append_right (length_ranking (by omega)).le,length_ranking (by omega)]
        simp
      obtain ⟨ht,rfl⟩ := List.getElem?_eq_some_iff.mp hg
      rw [show m + (k + 1) = m + 1 + k by omega]
      exact List.drop_eq_getElem_cons ht
    have hf := foldl_range_eq_standing fun i hi =>
      consider_standing h hk (ranking key n m) (i := i) hi
    have hg : pts[j]? = some pts[j] := List.getElem?_eq_getElem (by omega)
    simp only [handOut,hl,hf,standing_fst,hj,orFail,hg,bind,Except.bind,set_marks,
      ← hx,set_eq_raise hg]
    rw [ih (by omega) (by rw [length_raise,hp]),hd]
    rfl

lemma roundDiv_floor {num den} (hd : 0 < den) : roundDiv num den .Floor = .ok (num / den) := by
  obtain ⟨_,hq,hr⟩ := roundDiv_spec num hd.ne' .Floor
  rw [hq,hr,floor_intCast_div num hd]

lemma foldlM_allocate {W} (hW : 0 < W) (total) (wts : List Int) (pass) :
    wts.foldlM (allocate total W) pass = .ok ⟨pass.parts ++ wts.map fun w => total * w / W,
    pass.remainders ++ wts.map fun w => total * w % W,
    pass.allocated + (wts.map fun w => total * w / W).sum⟩ := by
  induction wts generalizing pass with
  | nil => simp [pure,Except.pure]
  | cons w wts ih =>
    have hm : total * w - total * w / W * W = total * w % W := by
      have hd := Int.mul_ediv_add_emod (total * w) W
      linarith
    have hr : allocate total W pass w =
        .ok ⟨pass.parts ++ [total * w / W],pass.remainders ++ [total * w % W],
          pass.allocated + total * w / W⟩ := by
      rw [allocate,roundDiv_floor hW,← hm]
      rfl
    rw [foldlM_cons,hr]
    refine (ih _).trans ?_
    simp [add_assoc]

lemma splitProRata_of_pos {total} (htt : 0 ≤ total) {wts} (hw : ∀ w ∈ wts, 0 ≤ w)
    (hW : 0 < wts.sum) : splitProRata total wts = .ok (apportion total wts) := by
  have hn : wts.length ≠ 0 := by
    intro hz
    rw [length_eq_zero_iff] at hz
    rw [hz] at hW
    exact lt_irrefl _ hW
  have ha : ¬ wts.any (· < 0) = true := by simpa using hw
  have hf : wts.foldl (· + ·) 0 = wts.sum := sum_eq_foldl.symm
  have hp := foldlM_allocate hW total wts {}
  simp only [nil_append,zero_add] at hp
  have hl := leftover_nonneg total hW
  have ht := leftover_lt_length total hW
  have hd : ¬ (leftover total wts < 0 ∨ leftover total wts ≥ wts.length) := by omega
  have hk : ∀ i < wts.length, (wts.map fun w => total * w % wts.sum).getD i 0 =
      remainder total wts i := by
    intro i hi
    simp [remainder,hi]
  rw [splitProRata,ensure,if_pos (not_lt.mpr htt)]
  show (if wts.length = 0 then _ else _) = _
  rw [if_neg hn,ensure,if_pos ha,hf]
  show (if wts.sum = 0 then _ else _) = _
  rw [if_neg hW.ne',hp]
  show (ensure (¬ (leftover total wts < 0 ∨ leftover total wts ≥ wts.length)) _ >>= _) = _
  rw [ensure,if_pos hd,replicate_eq_marks]
  have hm : 0 + (leftover total wts).toNat ≤ wts.length := by
    rw [zero_add]
    exact toNat_leftover_le total hW
  have hpt : (floors total wts).length = wts.length := length_map _
  have ho := handOut_eq hk (fun i => remainder_nonneg total hW i) (length_map _) hm hpt
  rw [zero_add,drop_zero] at ho
  exact ho

end Decimal

structure IsProRata (total : Int) (weights parts : List Int) : Prop where
  length : parts.length = weights.length
  sum : parts.sum = total
  share : ∀ (i : Nat) (p w : Int), parts[i]? = some p → weights[i]? = some w →
    p = ⌊((total * w : Int) : ℚ) / weights.sum⌋ ∨ p = ⌈((total * w : Int) : ℚ) / weights.sum⌉
  zero : ∀ (i : Nat) (p : Int), parts[i]? = some p → weights[i]? = some 0 → p = 0
  order : ∀ (i j : Nat) (p q w : Int), i < j → weights[i]? = some w → weights[j]? = some w →
    parts[i]? = some p → parts[j]? = some q → q ≤ p

variable {wts : List Int} {total : Int}

lemma isProRata_apportion (hW : 0 < wts.sum) : IsProRata total wts (apportion total wts) where
  length := length_apportion total wts
  sum := sum_apportion hW
  share _ _ _ hp hw := floor_or_ceil_of_apportion hW hp hw
  zero _ _ hp hw := apportion_of_zero hW hp hw
  order _ _ _ _ _ hij hi hj hp hq := apportion_antitone hW hij hi hj hp hq

lemma isProRata_zeros (wts) : IsProRata 0 wts (List.replicate wts.length 0) := by
  have hz : ∀ (i : Nat) (p : Int), (List.replicate wts.length (0 : Int))[i]? = some p → p = 0 := by
    intro i p hp
    exact eq_of_mem_replicate (mem_of_getElem? hp)
  refine ⟨length_replicate,by simp,?_,?_,?_⟩
  · intro i p w hp _
    left
    rw [hz i p hp,zero_mul,Int.cast_zero,zero_div,Int.floor_zero]
  · intro i p hp _
    exact hz i p hp
  · intro i j p q w _ _ _ hp hq
    rw [hz i p hp,hz j q hq]

lemma Money.splitProRata_of_zero (total) (hw : ∀ w ∈ wts, 0 ≤ w) (hz : wts.sum = 0) :
    Money.splitProRata total wts = if total = 0 then .ok (List.replicate wts.length 0)
    else .error (.error .DriftDetected) := by
  have hs : Money.sumWeights wts = .ok 0 := by
    rw [Money.sumWeights_eq hw,hz]
    rfl
  rw [Money.splitProRata]
  by_cases hl : wts.length = 0
  · rw [if_pos hl,hl]
    rfl
  · rw [if_neg hl,hs]
    rfl

lemma Decimal.splitProRata_of_zero (htt : 0 ≤ total) (hw : ∀ w ∈ wts, 0 ≤ w)
    (hz : wts.sum = 0) : if total = 0 then Decimal.splitProRata total wts = .ok
    (List.replicate wts.length 0) else Fails (Decimal.splitProRata total wts) := by
  have ha : ¬ wts.any (· < 0) = true := by simpa using hw
  have hf : wts.foldl (· + ·) 0 = 0 := by rw [← sum_eq_foldl,hz]
  rw [Decimal.splitProRata,ensure,if_pos (not_lt.mpr htt),ensure,if_pos ha,hf,map_const']
  by_cases hl : wts.length = 0
  · by_cases ht : total = 0
    · simp only [hl,ht,if_true]
      rfl
    · simp only [hl,ht,if_true,if_false]
      exact ⟨_,rfl⟩
  by_cases ht : total = 0
  · simp only [hl,ht,if_true,if_false]
    rfl
  · simp only [hl,ht,if_true,if_false]
    exact ⟨_,rfl⟩

lemma splitProRata_cases (htt : 0 ≤ total) (hs : ∀ w ∈ wts, 0 ≤ w ∧ i128.Fits (total * w)) :
    (Fails (Money.splitProRata total wts) ∧ Fails (Decimal.splitProRata total wts)) ∨
    ∃ pts, Decimal.splitProRata total wts = .ok pts ∧ IsProRata total wts pts ∧
    Money.splitProRata total wts =
    if i128.Fits wts.sum then .ok pts else .error (.error .Overflow) := by
  have hnn : ∀ w ∈ wts, 0 ≤ w := fun w hw => (hs w hw).1
  rcases (sum_nonneg hnn).eq_or_lt with hz | hp
  · -- all weights are zero: only zero can be split
    have hc := Money.splitProRata_of_zero total hnn hz.symm
    have hb := Decimal.splitProRata_of_zero htt hnn hz.symm
    by_cases ht : total = 0
    · rw [if_pos ht] at hc hb
      refine .inr ⟨_,hb,ht ▸ isProRata_zeros wts,?_⟩
      rw [hc,← hz]
      rfl
    · rw [if_neg ht] at hc hb
      exact .inl ⟨⟨_,hc⟩,hb⟩
  · refine .inr ⟨apportion total wts,Decimal.splitProRata_of_pos htt hnn hp,
      isProRata_apportion hp,?_⟩
    by_cases hf : i128.Fits wts.sum
    · rw [if_pos hf]
      exact Money.splitProRata_of_pos htt hs hp hf
    have hl : wts.length ≠ 0 := by
      intro hn
      rw [length_eq_zero_iff] at hn
      rw [hn] at hp
      exact lt_irrefl _ hp
    rw [Money.splitProRata,if_neg hl,Money.sumWeights_eq hnn,if_neg hf,if_neg hf]
    rfl

/-- **The two splits agree** if nothing is negative and the products fit: both fail, or both return
the same parts, or the sum of the weights does not fit and the contract reports the overflow. -/
theorem splitProRata_layers {total : Int} {weights : List Int} (htotal : 0 ≤ total)
    (hweights : ∀ w ∈ weights, 0 ≤ w) (hproducts : ∀ w ∈ weights, i128.Fits (total * w)) :
    ((Fails (Money.splitProRata total weights) ∧ Fails (Decimal.splitProRata total weights)) ∨
      (∃ parts, Money.splitProRata total weights = .ok parts ∧
      Decimal.splitProRata total weights = .ok parts) ∨ (¬ i128.Fits weights.sum ∧
      Money.splitProRata total weights = .error (.error .Overflow))) ∧
    ∀ parts, Money.splitProRata total weights = .ok parts ∨
      Decimal.splitProRata total weights = .ok parts → IsProRata total weights parts := by
  rcases splitProRata_cases htotal fun w hw => ⟨hweights w hw,hproducts w hw⟩ with
    hf | ⟨parts,hb,hp,hc⟩
  · obtain ⟨⟨e,he⟩,e',he'⟩ := hf
    refine ⟨.inl ⟨⟨e,he⟩,e',he'⟩,?_⟩
    rintro parts (h | h)
    · rw [he] at h
      cases h
    · rw [he'] at h
      cases h
  · by_cases ht : i128.Fits weights.sum
    · rw [if_pos ht] at hc
      refine ⟨.inr (.inl ⟨parts,hc,hb⟩),?_⟩
      rintro parts' (h | h)
      · rw [hc] at h
        exact Except.ok.inj h ▸ hp
      · rw [hb] at h
        exact Except.ok.inj h ▸ hp
    · rw [if_neg ht] at hc
      refine ⟨.inr (.inr ⟨ht,hc⟩),?_⟩
      rintro parts' (h | h)
      · rw [hc] at h
        cases h
      · rw [hb] at h
        exact Except.ok.inj h ▸ hp

theorem splitProRata_layers_thirds : Money.splitProRata 10 [1,1,1] = .ok [4,3,3] ∧
    Decimal.splitProRata 10 [1,1,1] = .ok [4,3,3] ∧ IsProRata 10 [1,1,1] [4,3,3] := by
  have hl := splitProRata_layers (by decide : (0 : Int) ≤ 10)
    (by decide : ∀ w ∈ ([1,1,1] : List Int), 0 ≤ w)
    (by decide : ∀ w ∈ ([1,1,1] : List Int), i128.Fits (10 * w))
  have hc : Money.splitProRata 10 [1,1,1] = .ok [4,3,3] := by decide +kernel
  have hb : Decimal.splitProRata 10 [1,1,1] = .ok [4,3,3] := by decide +kernel
  exact ⟨hc,hb,hl.2 _ (.inl hc)⟩

/-- Two weights whose products fit, and whose sum does not: the contract reports an overflow where
the backend splits. -/
theorem splitProRata_layers_overflow :
    (∀ w ∈ [i128.hi,i128.hi], 0 ≤ w ∧ i128.Fits w ∧ i128.Fits (1 * w)) ∧
    Money.splitProRata 1 [i128.hi,i128.hi] = .error (.error .Overflow) ∧
    Decimal.splitProRata 1 [i128.hi,i128.hi] = .ok [1,0] := by
  decide +kernel

end DukaPay
