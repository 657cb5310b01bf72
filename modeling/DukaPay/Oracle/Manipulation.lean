import DukaPay.Oracle.Feed

/-! While two other sources are fresh and within an interval, a single source cannot move the median
out of it, so the price that is read stays within 3.01% of it. -/
namespace DukaPay
open Contractlib

def Within (lo hi p : Int) : Prop := (lo - p) * 10000 < 301 * lo ∧ (p - hi) * 10000 < 301 * hi

instance (lo hi p : Int) : Decidable (Within lo hi p) := inferInstanceAs (Decidable (_ ∧ _))

lemma within_iff {lo hi p} :
    Within lo hi p ↔ lo - (301 * lo - 1) / 10000 ≤ p ∧ p ≤ hi + (301 * hi - 1) / 10000 := by
  unfold Within
  omega

lemma within_of_mem {lo hi p} (hl : 0 < lo) (h : lo ≤ p ∧ p ≤ hi) : Within lo hi p := by
  unfold Within
  omega

namespace Oracle

lemma within_of_deviation {lo hi price refPrice} (hp : 0 < refPrice)
    (hr : lo ≤ refPrice ∧ refPrice ≤ hi)
    (h : assertWithinDeviation price (some refPrice) = .ok ()) : Within lo hi price := by
  simp only [assertWithinDeviation,if_pos hp,deviationBps,eq_ok] at h
  obtain ⟨_,⟨diff,hd,_,⟨-,rfl⟩,rfl⟩,hl⟩ := h
  have hs : diff = |price - refPrice| := by
    unfold deviation at hd
    split at hd
    · simp only [expect_eq_ok,IntType.checkedSub_eq_some] at hd
      rw [abs_of_nonneg (by omega),hd.2]
    simp only [expect_eq_ok,IntType.checkedSub_eq_some] at hd
    rw [abs_of_neg (by omega)]
    omega
  have hn : 0 ≤ diff * 10000 := by
    rw [hs]
    exact mul_nonneg (abs_nonneg _) (by decide)
  rw [Int.tdiv_eq_ediv_of_nonneg hn] at hl
  have ht : diff * 10000 < 301 * refPrice :=
    Int.lt_mul_of_ediv_lt hp (lt_of_le_of_lt hl (by decide))
  have ha := le_abs_self (price - refPrice)
  have hb := neg_abs_le (price - refPrice)
  unfold Within
  omega

def OthersFresh (asset : Address) (r : String) (now : Nat) (s : Oracle) : Prop :=
  ∃ a b, a ≠ b ∧ a ≠ r ∧ b ≠ r ∧ s.freshSample asset now a ≠ none ∧ s.freshSample asset now b ≠ none

structure Cornered (asset : Address) (r : String) (lo hi : Int) (s : Oracle) : Prop where
  wellFormed : s.WellFormed
  others : ∀ source ts price, source ≠ r → s.sample asset source = some (ts, price) →
    lo ≤ price ∧ price ≤ hi
  series : ∀ q ∈ s.twapSeries asset, Within lo hi q.price

variable {asset : Address} {r : String} {lo hi : Int} {now : Nat} {s : Oracle}

lemma sample_of_fresh {src p} (h : s.freshSample asset now src = some p) : ∃ ts,
    s.sample asset src = some (ts,p) := by
  unfold freshSample at h
  cases hq : s.sample asset src with
  | none =>
    rw [hq] at h
    cases h
  | some q =>
    rw [hq] at h
    simp only [Option.ite_none_right_eq_some,Option.some.injEq] at h
    exact ⟨q.1,by rw [← h.2]⟩

def otherPrices (asset : Address) (r : String) (now : Nat) (s : Oracle) : List Int :=
  ((s.sourceList asset).filter (· ≠ r)).filterMap (s.freshSample asset now)

lemma two_le_otherPrices (hs : s.WellFormed) (h : s.OthersFresh asset r now) :
    2 ≤ (s.otherPrices asset r now).length := by
  obtain ⟨a,b,hab,har,hbr,ha,hb⟩ := h
  rw [otherPrices,List.length_filterMap_eq_countP,List.countP_eq_length_filter]
  have hm : ∀ src, src ≠ r → s.freshSample asset now src ≠ none →
      src ∈ ((s.sourceList asset).filter (· ≠ r)).filter
        fun src => (s.freshSample asset now src).isSome := by
    intro src hr hf
    simp [mem_sourceList_of_fresh hs hf,hr,Option.isSome_iff_ne_none,hf]
  have hsb : [a,b] ⊆ ((s.sourceList asset).filter (· ≠ r)).filter
      fun src => (s.freshSample asset now src).isSome := by
    intro src hsr
    simp only [List.mem_cons,List.not_mem_nil,or_false] at hsr
    obtain rfl | rfl := hsr
    · exact hm _ har ha
    · exact hm _ hbr hb
  exact (List.subperm_of_subset (by simpa using hab) hsb).length_le

lemma length_freshPrices_le (hs : s.WellFormed) :
    (s.freshPrices asset now).length ≤ (s.otherPrices asset r now).length + 1 := by
  rw [freshPrices,otherPrices,List.length_filterMap_eq_countP,List.length_filterMap_eq_countP,
    List.countP_eq_countP_filter_add _ _ (· ≠ r)]
  have ho : ((s.sourceList asset).filter fun src => !decide (src ≠ r)).length ≤ 1 := by
    have hc := List.nodup_iff_count_le_one.mp (hs.nodup asset) r
    rw [List.count,List.countP_eq_length_filter] at hc
    simpa [beq_eq_decide] using hc
  have hl := (List.countP_le_length (p := fun src => (s.freshSample asset now src).isSome)
    (l := (s.sourceList asset).filter fun src => !decide (src ≠ r))).trans ho
  exact Nat.add_le_add_left hl _

lemma Cornered.median (h : s.Cornered asset r lo hi) (hf : s.OthersFresh asset r now) :
    ∃ m, s.freshMedian asset now = .ok m ∧ lo ≤ m ∧ m ≤ hi := by
  have hw := two_le_otherPrices h.wellFormed hf
  have ho : (s.freshPrices asset now).length ≤ (s.otherPrices asset r now).length + 1 :=
    length_freshPrices_le h.wellFormed
  have hs : (s.otherPrices asset r now).Sublist (s.freshPrices asset now) :=
    List.Sublist.filterMap _ List.filter_sublist
  -- the other prices are inside, so at most one is outside
  have hn : ∀ p ∈ s.otherPrices asset r now, decide (lo ≤ p ∧ p ≤ hi) = true := by
    intro p hp
    obtain ⟨src,hr,hsm⟩ := List.mem_filterMap.mp hp
    obtain ⟨ts,ht⟩ := sample_of_fresh hsm
    exact decide_eq_true (h.others src ts p (of_decide_eq_true (List.mem_filter.mp hr).2) ht)
  have hc := hs.countP_le (p := fun p => decide (lo ≤ p ∧ p ≤ hi))
  rw [List.countP_eq_length.mpr hn] at hc
  have hsp := List.length_eq_countP_add_countP (fun p => decide (lo ≤ p ∧ p ≤ hi))
    (l := s.freshPrices asset now)
  have hl := hs.length_le
  obtain ⟨m,hm⟩ : ∃ m, s.freshMedian asset now = .ok m := exists_freshMedian (hw.trans hl)
  refine ⟨m,hm,freshMedian_between hm ?_⟩
  simp only [decide_eq_true_eq] at hsp
  omega

lemma referencePrice_of_median {m} (h : s.freshMedian asset now = .ok m) (hm : 0 < m) :
    s.referencePrice asset now = .ok (some m) := by
  have hs : s.smoothedPrice asset now = .ok (some m) := by
    simp only [smoothedPrice,h,Except.toOption,Option.filter_some,decide_eq_true hm,if_true]
    rfl
  simp only [referencePrice,hs]
  rfl

lemma Cornered.within (h : s.Cornered asset r lo hi) (hl : 0 < lo) (hf : s.OthersFresh asset r now)
    {price refPrice} (hr : s.referencePrice asset now = .ok refPrice)
    (hd : assertWithinDeviation price refPrice = .ok ()) : Within lo hi price := by
  obtain ⟨m,hm,hmm⟩ := h.median hf
  have hp : 0 < m := lt_of_lt_of_le hl hmm.1
  rw [referencePrice_of_median hm hp] at hr
  cases hr
  exact within_of_deviation hp hmm hd

end Oracle

/-- A submission for the asset finds two other sources fresh, and is in the interval unless it comes
from `r`. -/
def OracleCall.Honest (asset : Address) (r : String) (lo hi : Int) (now : Nat) (s : Oracle) :
    OracleCall → Prop
  | .submitPrice source a price =>
    a = asset → (source ≠ r → lo ≤ price ∧ price ≤ hi) ∧ s.OthersFresh asset r now
  | _ => True

namespace Oracle
variable {asset : Address} {r : String} {lo hi : Int} {s s' : Oracle}

lemma Cornered.step {self} (h : s.Cornered asset r lo hi) (hl : 0 < lo)
    (i : OracleInvocation) (hh : i.call.Honest asset r lo hi i.env.timestamp s)
    (hx : i.call.exec self i.env s = .ok s') : s'.Cornered asset r lo hi := by
  have hwl := h.wellFormed.step i hx
  generalize i.call = c at hh hx
  cases OracleCall.feeds hx with
  | @submit source a pr refPrice _ _ hf hd hr =>
    subst hr
    refine ⟨hwl,fun src ts p hc hp => ?_,fun q hq => ?_⟩
    · rw [sample_recordPrice] at hp
      split at hp
      · next hw =>
        obtain ⟨rfl,rfl⟩ := hw
        cases hp
        exact (hh rfl).1 hc
      · exact h.others src ts p hc hp
    · rw [twapSeries_recordPrice] at hq
      split at hq
      · next ha =>
        subst ha
        obtain hq | hq := List.mem_append.mp (mem_of_mem_trimSeries hq)
        · exact h.series q hq
        · cases List.mem_singleton.mp hq
          exact h.within hl (hh rfl).2 hf hd
      · exact h.series q hq
  | same hs =>
    obtain ⟨hm,-,-,hsr⟩ := hs
    refine ⟨hwl,?_,?_⟩
    · rw [hm]
      exact h.others
    · rw [hsr]
      exact h.series

lemma Cornered.price {now P} (h : s.Cornered asset r lo hi) (hl : 0 < lo)
    (hf : s.OthersFresh asset r now) (hP : s.getPriceResult now asset = .ok P) :
    Within lo hi P := by
  obtain ⟨_,hm,hmm⟩ := h.median hf
  obtain ⟨_,avg,hm',ha,rfl⟩ := getPriceResult_eq_ok hP
  cases hm.symm.trans hm'
  cases avg with
  | none => exact within_of_mem hl hmm
  | some v =>
    by_cases hv : 0 < v
    · rw [Option.filter_some,if_pos (decide_eq_true hv)]
      refine within_iff.mpr (twapOf_between (by omega) (fun q hq => ?_) ha)
      exact ⟨h.wellFormed.series asset q hq,within_iff.mp (h.series q hq)⟩
    · rw [Option.filter_some,if_neg (by simpa using hv)]
      exact within_of_mem hl hmm

end Oracle

/-- **Single-source manipulation bound**: if all sources but `r` stay in `[lo, hi]`, from the
samples and series of a reachable state on, and every submission finds two of them fresh, an
accepted price of `r` is within the bounds, and so is every price read while two of them are fresh. -/
theorem single_source_bound (self : Address) (cs₀ cs : List OracleInvocation) (asset : Address)
    (r : String) (lo hi : Int) (hlo : 0 < lo)
    (hsamples : ∀ source ts price,
      ((oracleSystem self).run .empty cs₀).sample asset source = some (ts, price) →
        lo ≤ price ∧ price ≤ hi)
    (hseries : ∀ q ∈ ((oracleSystem self).run .empty cs₀).twapSeries asset,
      lo ≤ q.price ∧ q.price ≤ hi)
    (hcs : (oracleSystem self).Along
      (fun s i => i.call.Honest asset r lo hi i.env.timestamp s)
      ((oracleSystem self).run .empty cs₀) cs) :
    let s := (oracleSystem self).run ((oracleSystem self).run .empty cs₀) cs
    (∀ (env : TimedEnv) (price : Int) (s' : Oracle), s.OthersFresh asset r env.timestamp →
      s.submitPrice self env r asset price = .ok s' → Within lo hi price) ∧
    ∀ (now : Nat) (P : Int), s.OthersFresh asset r now → s.getPriceResult now asset = .ok P →
      Within lo hi P := by
  intro s
  have hs : s.Cornered asset r lo hi := by
    refine Transactional.along_induction (I := Oracle.Cornered asset r lo hi)
      (fun _ i _ hs hh he => hs.step hlo i hh he) ?_ hcs
    exact ⟨Oracle.wellFormed_run self cs₀,fun source ts price _ => hsamples source ts price,
      fun q hq => within_of_mem hlo (hseries q hq)⟩
  refine ⟨fun env price s' hf hu => ?_,fun now P hf hP => hs.price hlo hf hP⟩
  cases Oracle.submitPrice_eq_ok hu with
  | submit _ _ hr hd => exact hs.within hlo hf hr hd
  | same _ ho => exact absurd rfl (ho r asset price)

def OracleInvocation.smallRogue : List OracleInvocation := [.price 5600 "dex" 10350 (by decide)]

theorem single_source_bound_small :
    let s := (oracleSystem ⟨1⟩).run ((oracleSystem ⟨1⟩).run .empty OracleInvocation.smallTriple)
      OracleInvocation.smallRogue
    s.getPriceResult 5900 ⟨3⟩ = .ok 10125 ∧ Within 10000 10100 10125 := by
  have hl : ((oracleSystem ⟨1⟩).run .empty OracleInvocation.smallTriple).sourceList ⟨3⟩ =
      ["pyth","chain","dex"] := by decide +kernel
  refine ⟨by decide +kernel,(single_source_bound ⟨1⟩ OracleInvocation.smallTriple
    OracleInvocation.smallRogue ⟨3⟩ "dex" 10000 10100 (by decide) ?_ (by decide +kernel)
    ⟨fun _ => ⟨fun h => absurd rfl h,?_⟩,trivial⟩).2 5900 10125 ?_ (by decide +kernel)⟩
  · intro source ts price hs
    have hm := ((Oracle.wellFormed_run ⟨1⟩ OracleInvocation.smallTriple).listed ⟨3⟩ source).mpr
      (by simp [hs])
    rw [hl] at hm
    simp only [List.mem_cons,List.not_mem_nil,or_false] at hm
    obtain rfl | rfl | rfl := hm
    · cases hs.symm.trans (show _ = some (5000,10000) by decide +kernel)
      decide
    · cases hs.symm.trans (show _ = some (5000,10100) by decide +kernel)
      decide
    · cases hs.symm.trans (show _ = some (5000,10050) by decide +kernel)
      decide
  · exact ⟨"pyth","chain",by decide,by decide,by decide,by decide +kernel,by decide +kernel⟩
  · exact ⟨"pyth","chain",by decide,by decide,by decide,by decide +kernel,by decide +kernel⟩

namespace Oracle

/-- **One rogue source**: with all fresh prices but one in an interval, the median is in it exactly
when three sources are fresh or no fresh price is above. -/
theorem median_robust_iff (s : Oracle) (asset : Address) (now : Nat) (m lo hi : Int)
    (h : s.freshMedian asset now = .ok m)
    (hout : (s.freshPrices asset now).countP (fun p => decide (¬ (lo ≤ p ∧ p ≤ hi))) ≤ 1) :
    lo ≤ m ∧ m ≤ hi ↔
      3 ≤ (s.freshPrices asset now).length ∨ ∀ p ∈ s.freshPrices asset now, p ≤ hi := by
  by_cases ht : 3 ≤ (s.freshPrices asset now).length
  · exact iff_of_true (freshMedian_between h (by omega)) (.inl ht)
  simp only [freshMedian,eq_ok] at h
  obtain ⟨hw,hm⟩ := h
  obtain ⟨hk,rfl⟩ := List.getElem?_eq_some_iff.mp hm
  have he := sortInPlace_perm (s.freshPrices asset now)
  have hs := sortInPlace_sorted (s.freshPrices asset now)
  have hl : (sortInPlace (s.freshPrices asset now)).length = 2 := by
    rw [he.length_eq]
    exact le_antisymm (by omega) hw
  constructor
  · -- of two prices the median is the larger one
    refine fun hin => .inr fun p hp => le_trans ?_ hin.2
    apply le_getElem_of_countP_le hs hk
    have hlt : (sortInPlace (s.freshPrices asset now)).countP (fun x => decide (x < p)) <
        (sortInPlace (s.freshPrices asset now)).length :=
      lt_of_le_of_ne List.countP_le_length fun ha =>
        absurd (List.countP_eq_length.mp ha p (he.mem_iff.mpr hp)) (by simp)
    omega
  · rintro (hthree' | hle)
    · exact absurd hthree' ht
    refine ⟨le_getElem_of_countP_le hs hk ?_,hle _ (he.mem_iff.mp (List.getElem_mem hk))⟩
    rw [he.countP_eq,hl]
    refine le_trans (List.countP_mono_left fun x _ hx => ?_) hout
    have := of_decide_eq_true hx
    exact decide_eq_true (by omega)

theorem median_robust_iff_three :
    let s := (oracleSystem ⟨1⟩).run .empty OracleInvocation.smallTriple
    s.freshMedian ⟨3⟩ 5600 = .ok 10050 ∧ (10000 : Int) ≤ 10050 ∧ (10050 : Int) ≤ 10050 :=
  ⟨by decide +kernel,(median_robust_iff ((oracleSystem ⟨1⟩).run .empty OracleInvocation.smallTriple)
    ⟨3⟩ 5600 10050 10000 10050 (by decide +kernel) (by decide +kernel)).mpr (by decide +kernel)⟩

/-- Of two fresh prices the larger one is the median: one source takes it from 10000 to 10100. -/
theorem rogue_median : let s := (oracleSystem ⟨1⟩).run .empty OracleInvocation.smallPair
    (s.freshPrices ⟨3⟩ 5000).countP (fun p => decide (¬ (10000 ≤ p ∧ p ≤ 10000))) = 1 ∧
      s.freshMedian ⟨3⟩ 5000 = .ok 10100 ∧ s.referencePrice ⟨3⟩ 5000 = .ok (some 10100) := by
  decide +kernel

end Oracle

end DukaPay
