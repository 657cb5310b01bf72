import DukaPay.Oracle.Feed

/-! The price is an average over the accepted prices of the last 30 minutes, so that one submission
should not move it all the way. -/
namespace DukaPay
open Contractlib List

namespace Oracle

def keptSeries (now : Nat) (series : List TwapSample) : List TwapSample :=
  let inWindow := series.dropWhile fun q => decide (q.ts < now - twapWindowSecs)
  inWindow.drop (inWindow.length + 1 - maxSamples)

variable {now : Nat} {series rest : List TwapSample} {last first : TwapSample}

lemma mem_of_mem_keptSeries {q} (h : q ∈ keptSeries now series) : q ∈ series :=
  (dropWhile_sublist _).subset ((drop_sublist _ _).subset h)

lemma trimSeries_append (now series p) :
    trimSeries now (series ++ [⟨now,p⟩]) = keptSeries now series ++ [⟨now,p⟩] := by
  have hw : (series ++ [(⟨now,p⟩ : TwapSample)]).dropWhile
        (fun q => decide (q.ts < now - twapWindowSecs)) =
      series.dropWhile (fun q => decide (q.ts < now - twapWindowSecs)) ++ [⟨now,p⟩] := by
    rw [dropWhile_append]
    split
    · next he =>
      rw [isEmpty_iff.mp he]
      simp
    · rfl
  simp only [trimSeries,keptSeries,hw,length_append,length_singleton]
  refine drop_append_of_le_length ?_
  have : 0 < maxSamples := by decide
  omega

lemma segments_append {cutoff q} (hl : (q :: rest).getLast? = some last) (ht : last.ts = now) (p) :
    segments now cutoff (q :: (rest ++ [⟨now,p⟩])) = segments now cutoff (q :: rest) := by
  induction rest generalizing q with
  | nil =>
    cases hl
    subst ht
    simp [segments]
  | cons next rest ih =>
    rw [getLast?_cons_cons] at hl
    rw [cons_append,segments,segments,ih hl]

lemma twapOf_append (hl : series.getLast? = some last) (ht : last.ts = now) {p r r'}
    (h : twapOf now series = .ok r)
    (h' : twapOf now (series ++ [⟨now,p⟩]) = .ok r') : r' = r := by
  cases series with
  | nil => cases hl
  | cons =>
    rw [cons_append] at h'
    rw [twapOf_eq_ok h,twapOf_eq_ok h']
    unfold averageOf segmentsOf
    rw [segments_append hl ht]

lemma exists_of_twapOf (hl : series.getLast? = some last) {r}
    (h : twapOf now series = .ok r) : ∃ v, r = some v := by
  cases series with
  | nil => cases hl
  | cons => exact ⟨_,twapOf_eq_ok h⟩

lemma twapOf_pos {v} (hs : ∀ q ∈ series, Positive q.price)
    (h : twapOf now series = .ok (some v)) : 0 < v := by
  have hb : ∀ q ∈ series, Positive q.price ∧ 1 ≤ q.price ∧ q.price ≤ i128.hi :=
    fun q hq => ⟨hs q hq,(hs q hq).1,(hs q hq).2.2⟩
  exact lt_of_lt_of_le one_pos (twapOf_between one_pos hb h).1

/-- The series smooths a submission of `x`: a price was accepted at this time already and nothing
falls out of the series; or an earlier sample is kept and `x` is above all prices that are kept, or
more than one below all of them. -/
def Smooths (asset : Address) (now : Nat) (x : Int) (s : Oracle) : Prop :=
  let kept := keptSeries now (s.twapSeries asset)
  (kept = s.twapSeries asset ∧ ∃ last ∈ kept.getLast?, last.ts = now) ∨
    (∃ first ∈ kept.head?, first.ts < now) ∧
      ((∀ q ∈ kept, q.price < x) ∨ ∀ q ∈ kept, x + 1 < q.price)

lemma price_of_twap {asset} {s : Oracle} {P v} (hP : s.getPriceResult now asset = .ok P)
    (hv : s.twap asset now = .ok (some v)) (hp : 0 < v) : P = v := by
  obtain ⟨_,_,-,ha,rfl⟩ := getPriceResult_eq_ok hP
  rw [hv] at ha
  cases ha
  rw [Option.filter_some,if_pos (decide_eq_true hp)]
  rfl

lemma mem_segmentsOf_append {x v} (hv : v ∈ segmentsOf now first (rest ++ [⟨now,x⟩])) :
    ∃ q ∈ first :: rest, v.1 = asU128 q.price ∨ v.1 = (asU128 q.price + asU128 x) / 2 ∨
    ∃ next ∈ first :: rest, v.1 = (asU128 q.price + asU128 next.price) / 2 := by
  obtain hv | hv := mem_append.mp hv
  · exact ⟨first,mem_cons_self,.inl (mem_leadOf hv)⟩
  rw [← cons_append] at hv
  obtain ⟨q,hq,ht,-⟩ | ⟨q,hq,next,hnx,hvq⟩ := mem_segments hv
  · rw [getLast?_concat] at hq
    cases hq
    exact absurd ht (lt_irrefl _)
  rw [dropLast_concat] at hq
  obtain hnx | hnx := mem_append.mp hnx
  · exact ⟨q,hq,.inr (.inr ⟨next,hnx,hvq⟩)⟩
  · cases mem_singleton.mp hnx
    exact ⟨q,hq,.inr (.inl hvq)⟩

lemma averageOf_append_between {x a b} (hw : first.ts < now)
    (hk : ∀ q ∈ first :: rest, a ≤ asU128 q.price ∧ asU128 q.price ≤ b)
    (hm : ∀ q ∈ first :: rest, a ≤ (asU128 q.price + asU128 x) / 2 ∧
    (asU128 q.price + asU128 x) / 2 ≤ b) : a ≤ averageOf now first (rest ++ [⟨now,x⟩]) ∧
    averageOf now first (rest ++ [⟨now,x⟩]) ≤ b := by
  refine averageOf_between hw fun v hv => ?_
  obtain ⟨q,hq,hvq | hvq | ⟨next,hx,hvq⟩⟩ := mem_segmentsOf_append hv
  · rw [hvq]
    exact hk q hq
  · rw [hvq]
    exact hm q hq
  have hb := hk q hq
  have hn := hk next hx
  omega

/-- **A spike is not reached**: the average of what is kept and of a price beyond it stays away from
that price. -/
lemma averageOf_ne {x} (hw : first.ts < now) (hx : Positive x)
    (hk : ∀ q ∈ first :: rest, Positive q.price)
    (hs : (∀ q ∈ first :: rest, q.price < x) ∨ ∀ q ∈ first :: rest, x + 1 < q.price) :
    0 < asI128 (averageOf now first (rest ++ [⟨now,x⟩])) ∧
    asI128 (averageOf now first (rest ++ [⟨now,x⟩])) ≠ x := by
  have hc : ∀ q ∈ first :: rest,
      (asU128 q.price : Int) = q.price ∧ 0 < q.price ∧ q.price ≤ i128.hi := fun q hq =>
    ⟨(hk q hq).asU128_eq,(hk q hq).1,(hk q hq).2.2⟩
  have hxc := hx.asU128_eq
  have hp := hx.1
  have hxh := hx.2.2
  obtain hb | habove := hs
  · obtain ⟨hl,hh⟩ : 1 ≤ averageOf now first (rest ++ [⟨now,x⟩]) ∧
        averageOf now first (rest ++ [⟨now,x⟩]) ≤ x.toNat - 1 := by
      refine averageOf_append_between hw (fun q hq => ?_) fun q hq => ?_
      · have hq' := hc q hq
        have ht := hb q hq
        omega
      · have hq' := hc q hq
        have ht := hb q hq
        omega
    rw [asI128_of_le (by omega)]
    omega
  · obtain ⟨hl,hh⟩ : x.toNat + 1 ≤ averageOf now first (rest ++ [⟨now,x⟩]) ∧
        averageOf now first (rest ++ [⟨now,x⟩]) ≤ i128.hi.toNat := by
      refine averageOf_append_between hw (fun q hq => ?_) fun q hq => ?_
      · have hq' := hc q hq
        have ht := habove q hq
        omega
      · have hq' := hc q hq
        have ht := habove q hq
        omega
    rw [asI128_of_le (by omega)]
    omega

variable {asset : Address} {source : String} {now : Nat} {x : Int} {s : Oracle}

lemma twap_recordPrice : (s.recordPrice source asset x now).twap asset now =
    twapOf now (keptSeries now (s.twapSeries asset) ++ [⟨now,x⟩]) := by
  rw [twap,twapSeries_recordPrice,if_pos rfl,trimSeries_append]

lemma Smooths.price_ne (hs : s.WellFormed) (hx : Positive x) {P}
    (hP : s.getPriceResult now asset = .ok P) (hf : 2 ≤ |x - P|) (h : s.Smooths asset now x) :
    (s.recordPrice source asset x now).getPriceResult now asset ≠ .ok x := by
  intro hd
  obtain ⟨-,_,-,hw,-⟩ := getPriceResult_eq_ok hd
  have hsr := twap_recordPrice (s := s) (x := x) ▸ hw
  obtain ⟨he,_,hl,ht⟩ | ⟨⟨first,hfs,hr⟩,hsp⟩ := h
  · -- nothing changes, and the price that was read is not the one submitted
    obtain ⟨-,_,-,hb,-⟩ := getPriceResult_eq_ok hP
    rw [he] at hsr hl
    cases twapOf_append hl ht hb hsr
    obtain ⟨_,rfl⟩ := exists_of_twapOf hl hb
    have ho := twapOf_pos (hs.series asset) hb
    rw [price_of_twap hP hb ho,price_of_twap hd hw ho,sub_self,abs_zero] at hf
    exact absurd hf (by decide)
  · cases hk : keptSeries now (s.twapSeries asset) with
    | nil =>
      rw [hk] at hfs
      cases hfs
    | cons q rest =>
      rw [hk] at hfs hsr hsp
      cases hfs
      have hps : ∀ p ∈ first :: rest, Positive p.price := fun p hp =>
        hs.series asset p (mem_of_mem_keptSeries (hk ▸ hp))
      obtain ⟨ho,hn⟩ := averageOf_ne hr hx hps hsp
      rw [cons_append] at hsr
      rw [twapOf_eq_ok hsr,if_neg (Nat.not_le.mpr hr)] at hw
      exact hn (price_of_twap hd hw ho).symm

lemma freshSample_recordPrice (src) : (s.recordPrice source asset x now).freshSample asset now src =
    if src = source then some x else s.freshSample asset now src := by
  unfold freshSample
  rw [sample_recordPrice]
  by_cases hs : src = source
  · simp [hs]
  · simp [hs]

lemma length_freshPrices_le_recordPrice : (s.freshPrices asset now).length ≤
    ((s.recordPrice source asset x now).freshPrices asset now).length := by
  have hl : (s.sourceList asset).Sublist ((s.recordPrice source asset x now).sourceList asset) := by
    rw [sourceList_recordPrice]
    split
    · exact sublist_append_left _ _
    · exact .refl _
  rw [freshPrices,freshPrices,length_filterMap_eq_countP,length_filterMap_eq_countP]
  refine le_trans (countP_mono_left fun src _ hf => ?_) hl.countP_le
  rw [freshSample_recordPrice]
  split
  · rfl
  · exact hf

lemma price_of_first (hs : s.WellFormed) (hx : Positive x) {P}
    (hP : s.getPriceResult now asset = .ok P) {first}
    (hf : (keptSeries now (s.twapSeries asset) ++ [TwapSample.mk now x]).head? = some first)
    (hnw : now ≤ first.ts) :
    (s.recordPrice source asset x now).getPriceResult now asset = .ok first.price := by
  simp only [getPriceResult,bind_eq_ok] at hP
  obtain ⟨_,ha,_,-,_,-,_,hm,-⟩ := hP
  simp only [freshMedian,eq_ok] at hm
  have hn : minSources ≤ ((s.recordPrice source asset x now).freshPrices asset now).length :=
    hm.1.trans length_freshPrices_le_recordPrice
  obtain ⟨m',hm'⟩ := exists_freshMedian hn
  have hv : (s.recordPrice source asset x now).twap asset now = .ok (some first.price) := by
    obtain ⟨_,hr⟩ := head?_eq_some_iff.mp hf
    rw [twap_recordPrice,hr,twapOf,if_pos hnw]
    rfl
  have hp : 0 < first.price := by
    obtain hk | hw := mem_append.mp (mem_of_mem_head? hf)
    · exact (hs.series asset first (mem_of_mem_keptSeries hk)).1
    · cases mem_singleton.mp hw
      exact hx.1
  have hps : (s.recordPrice source asset x now).assertNotPaused = .ok () := ha
  have hg : (s.recordPrice source asset x now).aggregate asset = some ⟨x,now⟩ := by
    simp [recordPrice,pushAggregate,publish]
  simp only [getPriceResult,hps,hg,hm',hv,eq_ok]
  refine ⟨trivial,⟨x,now⟩,rfl,?_,m',rfl,some first.price,rfl,?_⟩
  · simp
  · rw [Option.filter_some,if_pos (decide_eq_true hp)]
    rfl

end Oracle

/-- **Smoothing**: in every state that is reached, after a price that is away from the one read
before was accepted, the price that is read at the same time is not the one submitted, when the
series smooths it. -/
theorem twap_smoothing (self : Address) (cs : List OracleInvocation) (env : TimedEnv)
    (source : String) (asset : Address) (x P : Int) (s' : Oracle) (htyped : i128.Fits x)
    (hP : ((oracleSystem self).run .empty cs).getPriceResult env.timestamp asset = .ok P)
    (hsubmit : ((oracleSystem self).run .empty cs).submitPrice self env source asset x = .ok s')
    (hfar : 2 ≤ |x - P|) :
    let s := (oracleSystem self).run .empty cs
    (s.Smooths asset env.timestamp x → s'.getPriceResult env.timestamp asset ≠ .ok x) ∧
    ∀ first, (Oracle.keptSeries env.timestamp (s.twapSeries asset) ++
        [TwapSample.mk env.timestamp x]).head? = some first → env.timestamp ≤ first.ts →
      s'.getPriceResult env.timestamp asset = .ok first.price := by
  intro s
  cases Oracle.submitPrice_eq_ok hsubmit with
  | submit _ hp _ _ hr =>
    subst hr
    have hw := Oracle.wellFormed_run self cs
    have hx : Oracle.Positive x := ⟨hp,htyped⟩
    exact ⟨fun hs => hs.price_ne hw hx hP hfar,
      fun first hf hn => Oracle.price_of_first hw hx hP hf hn⟩
  | same _ ho => exact absurd rfl (ho source asset x)

def Oracle.smallSpike (timestamp : Nat) : Oracle :=
  (((oracleSystem ⟨1⟩).run .empty OracleInvocation.smallTriple).submitPrice ⟨1⟩
    (.smallAt timestamp) "dex" ⟨3⟩ 10300).toOption.getD .empty

theorem twap_smoothing_small :
    ((oracleSystem ⟨1⟩).run .empty OracleInvocation.smallTriple).getPriceResult 5600 ⟨3⟩ =
    .ok 10016 ∧ (Oracle.smallSpike 5600).getPriceResult 5600 ⟨3⟩ ≠ .ok 10300 := by
  refine ⟨by decide +kernel,(twap_smoothing ⟨1⟩ OracleInvocation.smallTriple (.smallAt 5600) "dex"
    ⟨3⟩ 10300 10016 (.smallSpike 5600) (by decide) (by decide +kernel)
    (eq_ok_of_not_fails (by decide +kernel) .empty) (by decide)).1 (.inr ⟨?_,.inl ?_⟩)⟩
  · exact ⟨⟨5000,10000⟩,by decide +kernel,by decide +kernel⟩
  · decide +kernel

/-- Half an hour after the last price, one submission is the whole series. -/
theorem twap_smoothing_jump :
    ((oracleSystem ⟨1⟩).run .empty OracleInvocation.smallTriple).getPriceResult 7000 ⟨3⟩ =
    .ok 10050 ∧
    ((oracleSystem ⟨1⟩).run .empty OracleInvocation.smallTriple).submitPrice ⟨1⟩ (.smallAt 7000)
    "dex" ⟨3⟩ 10300 = .ok (.smallSpike 7000) ∧ 2 ≤ |(10300 - 10050 : Int)| ∧
    (Oracle.smallSpike 7000).getPriceResult 7000 ⟨3⟩ = .ok 10300 :=
  ⟨by decide +kernel,eq_ok_of_not_fails (by decide +kernel) .empty,by decide,by decide +kernel⟩

end DukaPay
