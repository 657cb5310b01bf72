import DukaPay.Oracle.Prices

/-! Only an accepted submission changes what the oracle knows about prices. -/
namespace DukaPay
open Contractlib List Transactional

namespace Oracle

structure SameFeed (s s' : Oracle) : Prop where
  sample : s'.sample = s.sample
  sourceList : s'.sourceList = s.sourceList
  aggregate : s'.aggregate = s.aggregate
  twapSeries : s'.twapSeries = s.twapSeries

variable {source : String} {asset : Address} {price : Int} {now : Nat} {s : Oracle}

lemma sample_recordPrice (a src) : (s.recordPrice source asset price now).sample a src =
    if a = asset ∧ src = source then some (now,price) else s.sample a src := by
  obtain rfl | ha := eq_or_ne a asset
  · obtain rfl | hsrc := eq_or_ne src source
    · simp [recordPrice,pushAggregate,publish]
    · simp [recordPrice,pushAggregate,publish,hsrc]
  · simp [recordPrice,pushAggregate,publish,ha]

lemma sourceList_recordPrice (a) : (s.recordPrice source asset price now).sourceList a =
    if a = asset ∧ source ∉ s.sourceList asset then s.sourceList asset ++ [source]
    else s.sourceList a := by
  simp only [recordPrice,pushAggregate,publish]
  by_cases hm : source ∈ s.sourceList asset
  · simp [hm]
  obtain rfl | ha := eq_or_ne a asset
  · simp [hm]
  · simp [hm,ha]

lemma twapSeries_recordPrice (a) : (s.recordPrice source asset price now).twapSeries a =
    if a = asset then trimSeries now (s.twapSeries asset ++ [⟨now,price⟩]) else s.twapSeries a := by
  obtain rfl | ha := eq_or_ne a asset
  · simp [recordPrice,pushAggregate,publish]
  · simp [recordPrice,pushAggregate,publish,ha]

lemma mem_of_mem_trimSeries {ts series q} (h : q ∈ trimSeries ts series) : q ∈ series :=
  (dropWhile_sublist _).subset ((drop_sublist _ _).subset h)

end Oracle

inductive OracleCall.Feeds (env : TimedEnv) (s s' : Oracle) : OracleCall → Prop
  | submit {source : String} {asset : Address} {price : Int} {refPrice : Option Int}
    (hregistered : s.sourceAddress source ≠ none) (hpositive : 0 < price)
    (href : s.referencePrice asset env.timestamp = .ok refPrice)
    (hdeviation : Oracle.assertWithinDeviation price refPrice = .ok ())
    (hrecorded : s' = s.recordPrice source asset price env.timestamp) :
    Feeds env s s' (.submitPrice source asset price)
  | same {c : OracleCall} (hsame : Oracle.SameFeed s s')
    (hc : ∀ source asset price, c ≠ .submitPrice source asset price) : Feeds env s s' c

variable {env : TimedEnv} {s' : Oracle}

lemma Oracle.asAdmin_eq_ok {change s}
    (h : asAdmin env change s = .ok s') : ∃ adm, s.admin = some adm ∧ s' = change adm s := by
  simp only [asAdmin,readAdmin,eq_ok] at h
  obtain ⟨adm,ha,-,rfl⟩ := h
  exact ⟨adm,ha,rfl⟩

lemma Oracle.submitPrice_eq_ok {self source asset price} {s : Oracle}
    (h : s.submitPrice self env source asset price = .ok s') :
    OracleCall.Feeds env s s' (.submitPrice source asset price) := by
  simp only [submitPrice,eq_ok] at h
  obtain ⟨-,-,_,ha,-,hp,_,hr,hd,rfl⟩ := h
  exact .submit (by simp [ha]) hp hr hd rfl

/-- **The calls feed prices**: a call that returns has recorded a price that passed the checks, or
has left the prices alone. -/
lemma OracleCall.feeds {self s} {c : OracleCall}
    (h : c.exec self env s = .ok s') : c.Feeds env s s' := by
  cases c with
  | submitPrice => exact Oracle.submitPrice_eq_ok h
  | initializeOracle =>
    simp only [exec,Oracle.initializeOracle,eq_ok] at h
    obtain ⟨-,-,rfl⟩ := h
    exact .same ⟨rfl,rfl,rfl,rfl⟩ fun _ _ _ hc => by cases hc
  | acceptAdmin =>
    simp only [exec,Oracle.acceptAdmin,eq_ok] at h
    obtain ⟨_,-,-,-,rfl⟩ := h
    exact .same ⟨rfl,rfl,rfl,rfl⟩ fun _ _ _ hc => by cases hc
  | _ =>
    simp only [exec,Oracle.pause,Oracle.unpause,Oracle.proposeAdmin,Oracle.setCircuitBreaker,
      Oracle.setSource,Oracle.removeSource] at h
    obtain ⟨_,-,rfl⟩ := Oracle.asAdmin_eq_ok h
    exact .same ⟨rfl,rfl,rfl,rfl⟩ fun _ _ _ hc => by cases hc

namespace Oracle

structure WellFormed (s : Oracle) : Prop where
  listed : ∀ asset source, source ∈ s.sourceList asset ↔ s.sample asset source ≠ none
  nodup : ∀ asset, (s.sourceList asset).Nodup
  series : ∀ asset, ∀ q ∈ s.twapSeries asset, Positive q.price

lemma wellFormed_empty : empty.WellFormed where
  listed := fun _ _ => by simp [empty]
  nodup := fun _ => nodup_nil
  series := fun _ _ hq => by cases hq

variable {s s' : Oracle} {source : String}

lemma WellFormed.of_same (h : s.WellFormed) (hsa : SameFeed s s') : s'.WellFormed := by
  obtain ⟨hs,hl,-,hr⟩ := hsa
  refine ⟨?_,?_,?_⟩
  · rw [hs,hl]
    exact h.listed
  · rw [hl]
    exact h.nodup
  · rw [hr]
    exact h.series

lemma WellFormed.recordPrice (h : s.WellFormed) (source asset) {price}
    (hp : Positive price) (now) : (s.recordPrice source asset price now).WellFormed := by
  refine ⟨fun a src => ?_,fun a => ?_,fun a q hq => ?_⟩
  · rw [sample_recordPrice,sourceList_recordPrice]
    have hl := h.listed a src
    obtain rfl | ha := eq_or_ne a asset
    · obtain rfl | hsrc := eq_or_ne src source
      · by_cases hm : src ∈ s.sourceList a
        · simp [hm]
        · simp [hm]
      by_cases hm : source ∈ s.sourceList a
      · simpa [hm,hsrc] using hl
      · simpa [hm,hsrc] using hl
    · simpa [ha] using hl
  · rw [sourceList_recordPrice]
    split
    · next hw =>
      exact List.Nodup.append (h.nodup asset) (nodup_singleton source) (disjoint_singleton.mpr hw.2)
    · exact h.nodup a
  · rw [twapSeries_recordPrice] at hq
    split at hq
    · obtain hq | hq := mem_append.mp (mem_of_mem_trimSeries hq)
      · exact h.series asset q hq
      · cases mem_singleton.mp hq
        exact hp
    · exact h.series a q hq

lemma WellFormed.step {self} (h : s.WellFormed) (i : OracleInvocation)
    (hx : i.call.exec self i.env s = .ok s') : s'.WellFormed := by
  have ht := i.typed
  generalize i.call = c at hx ht
  cases OracleCall.feeds hx with
  | submit _ hp _ _ hr =>
    subst hr
    exact h.recordPrice _ _ ⟨hp,ht⟩ _
  | same hs => exact h.of_same hs

lemma wellFormed_run (self cs) : ((oracleSystem self).run .empty cs).WellFormed :=
  run_induction (I := WellFormed) (fun _ i _ hs hx => hs.step i hx) wellFormed_empty cs

def forget (source : String) (s : Oracle) : Oracle :=
  { s with sample := fun asset src => if src = source then none else s.sample asset src }

section
variable {asset : Address} {now : Nat} {source : String} {s : Oracle}

lemma mem_sourceList_of_fresh (hs : s.WellFormed)
    (h : s.freshSample asset now source ≠ none) : source ∈ s.sourceList asset := by
  rw [hs.listed]
  intro hn
  exact h (by simp [freshSample,hn])

lemma freshSample_forget (src) : (s.forget source).freshSample asset now src =
    if src = source then none else s.freshSample asset now src := by
  by_cases h : src = source <;> simp [freshSample,forget,h]

lemma freshPrices_forget (h : s.freshSample asset now source = none) :
    (s.forget source).freshPrices asset now = s.freshPrices asset now := by
  refine filterMap_congr fun src _ => ?_
  rw [freshSample_forget]
  split
  · next hs => rw [hs,h]
  · rfl

lemma length_filterMap_forget (h : s.freshSample asset now source ≠ none) {l : List String}
    (hl : l.Nodup) : (l.filterMap (s.freshSample asset now)).length =
    (l.filterMap ((s.forget source).freshSample asset now)).length +
    if source ∈ l then 1 else 0 := by
  induction l with
  | nil => rfl
  | cons src l ih =>
    obtain ⟨hs,hl⟩ := nodup_cons.mp hl
    have hr := ih hl
    by_cases he : src = source
    · -- the one place where the two lists differ
      subst he
      obtain ⟨_,hp⟩ := Option.ne_none_iff_exists'.mp h
      rw [if_neg hs] at hr
      simp [hp,freshSample_forget src,hr]
    have hsa : (s.forget source).freshSample asset now src = s.freshSample asset now src := by
      rw [freshSample_forget,if_neg he]
    have hf : (source ∈ src :: l) = (source ∈ l) := by simp [Ne.symm he]
    rw [filterMap_cons,filterMap_cons,hsa]
    simp only [hf]
    cases s.freshSample asset now src with
    | none => exact hr
    | some =>
      simp only [length_cons]
      omega

lemma length_freshPrices_forget (hs : s.WellFormed) (h : s.freshSample asset now source ≠ none) :
    (s.freshPrices asset now).length = ((s.forget source).freshPrices asset now).length + 1 := by
  have hn := length_filterMap_forget h (hs.nodup asset)
  rwa [if_pos (mem_sourceList_of_fresh hs h)] at hn

variable (h : s.freshSample asset now source = none)

include h

lemma freshMedian_forget : (s.forget source).freshMedian asset now = s.freshMedian asset now := by
  simp only [freshMedian,freshPrices_forget h]

lemma referencePrice_forget :
    (s.forget source).referencePrice asset now = s.referencePrice asset now := by
  simp only [referencePrice,smoothedPrice,freshMedian_forget h]
  rfl

lemma getPriceResult_forget :
    (s.forget source).getPriceResult now asset = s.getPriceResult now asset := by
  simp only [getPriceResult,freshMedian_forget h]
  rfl

end

structure Revoked (source : String) (removed s : Oracle) : Prop where
  configured : s.admin ≠ none
  address : s.sourceAddress source = none
  sample : ∀ asset, s.sample asset source = removed.sample asset source

lemma revoked_of_removeSource {env} (h : s.removeSource env source = .ok s') :
    Revoked source s' s' := by
  obtain ⟨_,ha,rfl⟩ := asAdmin_eq_ok h
  exact ⟨by simp [publish,ha],by simp [publish],fun _ => rfl⟩

lemma Revoked.step {self env removed} {c : OracleCall} (h : Revoked source removed s)
    (hc : ∀ addr, c = .setSource source addr → c.exec self env s ≠ .ok s')
    (hx : c.exec self env s = .ok s') : Revoked source removed s' := by
  obtain ⟨hn,ha,hs⟩ := h
  have hf := OracleCall.feeds hx
  cases c with
  | submitPrice src asset price =>
    cases hf with
    | submit hre _ _ _ hrec =>
      subst hrec
      have he : source ≠ src := by
        rintro rfl
        exact hre ha
      refine ⟨hn,ha,fun a => ?_⟩
      rw [sample_recordPrice,if_neg fun hand => he hand.2]
      exact hs a
    | same _ ho => exact absurd rfl (ho src asset price)
  | initializeOracle =>
    simp only [OracleCall.exec,initializeOracle,eq_ok] at hx
    exact absurd hx.1 hn
  | acceptAdmin =>
    simp only [OracleCall.exec,acceptAdmin,eq_ok] at hx
    obtain ⟨_,-,-,-,rfl⟩ := hx
    exact ⟨by simp [publish],ha,hs⟩
  | setSource src addr =>
    have he : source ≠ src := by
      rintro rfl
      exact hc addr rfl hx
    simp only [OracleCall.exec,setSource] at hx
    obtain ⟨adm,-,rfl⟩ := asAdmin_eq_ok hx
    exact ⟨hn,by simpa [publish,he] using ha,hs⟩
  | removeSource src =>
    simp only [OracleCall.exec,removeSource] at hx
    obtain ⟨adm,-,rfl⟩ := asAdmin_eq_ok hx
    refine ⟨hn,?_,hs⟩
    by_cases hr : source = src
    · simp [publish,hr]
    · simpa [publish,hr] using ha
  | _ =>
    simp only [OracleCall.exec,pause,unpause,proposeAdmin,setCircuitBreaker] at hx
    obtain ⟨adm,-,rfl⟩ := asAdmin_eq_ok hx
    exact ⟨hn,ha,hs⟩

def Expired (asset : Address) (now : Nat) (source : String) (s : Oracle) : Prop :=
  ∀ ts price, s.sample asset source = some (ts,price) → maxSourceAgeSecs < now - ts

lemma freshSample_eq_none {asset now} :
    s.freshSample asset now source = none ↔ s.Expired asset now source := by
  unfold freshSample Expired
  cases s.sample asset source with
  | none => simp
  | some q =>
    obtain ⟨_,_⟩ := q
    simp
    omega

end Oracle

/-- **Removed sources**: after a source was removed, and until it is registered again, the median,
the reference price and the price are as if it had no sample, for every asset and time at which the
sample it had has expired. -/
theorem removed_source_expires (self : Address) (cs₀ cs : List OracleInvocation) (env : TimedEnv)
    (source : String) (s₁ : Oracle)
    (hremoved : ((oracleSystem self).run .empty cs₀).removeSource env source = .ok s₁)
    (hcs : (oracleSystem self).Along
      (fun s i => ∀ address s', i.call = .setSource source address →
        i.call.exec self i.env s ≠ .ok s') s₁ cs)
    (asset : Address) (now : Nat) :
    let s := (oracleSystem self).run s₁ cs
    (s₁.Expired asset now source →
      s.freshMedian asset now = (s.forget source).freshMedian asset now ∧
      s.referencePrice asset now = (s.forget source).referencePrice asset now ∧
      s.getPriceResult now asset = (s.forget source).getPriceResult now asset) ∧
    (¬ s₁.Expired asset now source →
      (s.freshPrices asset now).length = ((s.forget source).freshPrices asset now).length + 1) := by
  intro s
  have hr : Oracle.Revoked source s₁ s :=
    along_induction (I := Oracle.Revoked source s₁)
      (P := fun s i => ∀ address s', i.call = .setSource source address →
        i.call.exec self i.env s ≠ .ok s')
      (fun _ i s' hs hc he => hs.step (fun address => hc address s') he)
      (Oracle.revoked_of_removeSource hremoved) hcs
  have hs₁ : s₁.WellFormed := by
    obtain ⟨_,-,rfl⟩ := Oracle.asAdmin_eq_ok hremoved
    exact (Oracle.wellFormed_run self cs₀).of_same ⟨rfl,rfl,rfl,rfl⟩
  have hw : s.WellFormed :=
    run_induction (I := Oracle.WellFormed) (fun _ i _ hs he => hs.step i he) hs₁ cs
  have hf : s.freshSample asset now source = none ↔ s₁.Expired asset now source := by
    rw [Oracle.freshSample_eq_none]
    unfold Oracle.Expired
    rw [hr.sample]
  refine ⟨fun hx => ?_,fun hx => ?_⟩
  · have hn := hf.mpr hx
    exact ⟨(Oracle.freshMedian_forget hn).symm,(Oracle.referencePrice_forget hn).symm,
      (Oracle.getPriceResult_forget hn).symm⟩
  · exact Oracle.length_freshPrices_forget hw fun hn => hx (hf.mp hn)

def OracleInvocation.small (timestamp : Nat) (call : OracleCall) (typed : call.Typed) :
    OracleInvocation :=
  ⟨.smallAt timestamp,call,typed⟩

def OracleInvocation.price (timestamp : Nat) (source : String) (price : Int)
    (h : i128.Fits price) : OracleInvocation :=
  .small timestamp (.submitPrice source ⟨3⟩ price) h

def OracleInvocation.smallInit : OracleInvocation :=
  .small 5000 (.initializeOracle ⟨4⟩ [⟨"pyth",⟨5⟩⟩,⟨"chain",⟨6⟩⟩,⟨"dex",⟨7⟩⟩]) trivial

def OracleInvocation.smallPair : List OracleInvocation :=
  [.smallInit,.price 5000 "pyth" 10000 (by decide),.price 5000 "chain" 10100 (by decide)]

def OracleInvocation.smallTriple : List OracleInvocation :=
  smallPair ++ [.price 5000 "dex" 10050 (by decide)]

def Oracle.smallRemoved : Oracle :=
  (((oracleSystem ⟨1⟩).run .empty OracleInvocation.smallPair).removeSource
    (.smallAt 5000) "pyth").toOption.getD .empty

def OracleInvocation.smallLater : List OracleInvocation :=
  [.price 8700 "chain" 10050 (by decide),.price 8700 "dex" 10060 (by decide)]

theorem removed_source_expires_small :
    let s := (oracleSystem ⟨1⟩).run Oracle.smallRemoved OracleInvocation.smallLater
    s.freshMedian ⟨3⟩ 8700 = .ok 10060 ∧
      s.freshMedian ⟨3⟩ 8700 = (s.forget "pyth").freshMedian ⟨3⟩ 8700 := by
  have hr := eq_ok_of_not_fails (x := ((oracleSystem ⟨1⟩).run .empty
    OracleInvocation.smallPair).removeSource (.smallAt 5000) "pyth") (by decide +kernel) .empty
  have hcs : (oracleSystem ⟨1⟩).Along (fun s i => ∀ address s', i.call = .setSource "pyth" address →
      i.call.exec ⟨1⟩ i.env s ≠ .ok s') .smallRemoved OracleInvocation.smallLater := by
    refine always_of_forall fun _ i hi address _ ha => ?_
    simp only [OracleInvocation.smallLater,mem_cons,not_mem_nil,or_false] at hi
    obtain rfl | rfl := hi <;> cases ha
  have he : Oracle.smallRemoved.Expired ⟨3⟩ 8700 "pyth" :=
    Oracle.freshSample_eq_none.mp (by decide +kernel)
  exact ⟨by decide +kernel,((removed_source_expires ⟨1⟩ OracleInvocation.smallPair
    OracleInvocation.smallLater (.smallAt 5000) "pyth" .smallRemoved hr hcs ⟨3⟩ 8700).1
    he).1⟩

/-- One source is left after the removal, but the price is read as if there were two. -/
theorem removed_source_counts :
    ((oracleSystem ⟨1⟩).run .empty OracleInvocation.smallPair).removeSource
    (.smallAt 5000) "pyth" = .ok Oracle.smallRemoved ∧
    Oracle.smallRemoved.freshMedian ⟨3⟩ 5100 = .ok 10100 ∧
    (Oracle.smallRemoved.forget "pyth").freshMedian ⟨3⟩ 5100 =
    .error (.oracle .InsufficientSources) ∧
    Oracle.smallRemoved.getPriceResult 5100 ⟨3⟩ = .ok 10005 ∧
    (Oracle.smallRemoved.forget "pyth").getPriceResult 5100 ⟨3⟩ =
    .error (.oracle .InsufficientSources) :=
  ⟨eq_ok_of_not_fails (by decide +kernel) .empty,by decide +kernel,by decide +kernel,
    by decide +kernel,by decide +kernel⟩

end DukaPay
