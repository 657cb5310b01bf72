import DukaPay.Contractlib.Median
import DukaPay.Oracle.Defs

/-! What the loops of `twap` and `sort_in_place` compute: a weighted average of the segments of the
series, and the upper median of the fresh prices. -/
namespace DukaPay
open Contractlib List

namespace Oracle

def segments (now cutoff : Nat) : List TwapSample → List (Nat × Nat)
  | [] => []
  | [q] =>
    let cur := max q.ts cutoff
    if cur < now then [(asU128 q.price,now - cur)] else []
  | q :: next :: rest =>
    let cur := max q.ts cutoff
    if next.ts ≤ cur then segments now cutoff (next :: rest)
    else ((asU128 q.price + asU128 next.price) / 2,next.ts - cur) ::
      segments now cutoff (next :: rest)

variable {now cutoff : Nat} {first : TwapSample} {acc : Weighted} {rest series : List TwapSample}
  {asset : Address}

lemma accumulate_eq_ok {p dt acc'} (h : accumulate p dt acc = .ok acc') : acc' = acc.add p dt := by
  simp only [accumulate,eq_ok,NatType.checkedMul_eq_some] at h
  obtain ⟨_,⟨-,rfl⟩,_,⟨-,rfl⟩,_,⟨-,rfl⟩,rfl⟩ := h
  rfl

lemma twapLoop_eq_ok {q acc'} (h : twapLoop now cutoff (q :: rest) acc = .ok acc') :
    acc' = acc.addAll (segments now cutoff (q :: rest)) := by
  induction rest generalizing q acc with
  | nil =>
    rw [twapLoop] at h
    rw [segments]
    by_cases hc : max q.ts cutoff < now
    · rw [if_pos hc] at h ⊢
      exact accumulate_eq_ok h
    · rw [if_neg hc] at h ⊢
      exact (pure_eq_ok.mp h).symm
  | cons next rest ih =>
    rw [twapLoop] at h
    rw [segments]
    by_cases hc : next.ts ≤ max q.ts cutoff
    · rw [if_pos hc] at h ⊢
      exact ih h
    rw [if_neg hc] at h ⊢
    simp only [eq_ok] at h
    obtain ⟨_,⟨-,rfl⟩,_,ha1,h⟩ := h
    rw [ih h,accumulate_eq_ok ha1]
    rfl

lemma le_sum_segments (now cutoff q rest) :
    now ≤ ((segments now cutoff (q :: rest)).map Prod.snd).sum + max q.ts cutoff := by
  induction rest generalizing q with
  | nil =>
    simp only [segments]
    split
    · simp only [map_cons,map_nil,sum_cons,sum_nil]
      omega
    · simp only [map_nil,sum_nil]
      omega
  | cons next rest ih =>
    have hn := ih next
    simp only [segments]
    split
    · omega
    · simp only [map_cons,sum_cons]
      omega

def leadOf (cutoff : Nat) (first : TwapSample) : List (Nat × Nat) :=
  if cutoff < first.ts then [(asU128 first.price,first.ts - cutoff)] else []

lemma twapLead_eq_ok (h : twapLead cutoff first = .ok acc) :
    acc = Weighted.zero.addAll (leadOf cutoff first) := by
  unfold twapLead at h
  unfold leadOf
  split at h
  · next hc =>
    rw [if_pos hc]
    exact accumulate_eq_ok h
  · next hc =>
    rw [if_neg hc]
    exact (pure_eq_ok.mp h).symm

def segmentsOf (now : Nat) (first : TwapSample) (rest : List TwapSample) : List (Nat × Nat) :=
  leadOf (now - twapWindowSecs) first ++ segments now (now - twapWindowSecs) (first :: rest)

def averageOf (now : Nat) (first : TwapSample) (rest : List TwapSample) : Nat :=
  let acc := Weighted.zero.addAll (segmentsOf now first rest)
  acc.sum / acc.weight

lemma weight_pos (h : first.ts < now) (rest) :
    0 < (Weighted.zero.addAll (segmentsOf now first rest)).weight := by
  have hs := le_sum_segments now (now - twapWindowSecs) first rest
  rw [Weighted.weight_addAll,segmentsOf,map_append,sum_append]
  have : now - twapWindowSecs < now := Nat.sub_lt (by omega) (by decide)
  omega

/-- **The average of a series**: a sample at `now` or later counts alone; otherwise the result is
the average of the segments. -/
lemma twapOf_eq_ok {r} (h : twapOf now (first :: rest) = .ok r) :
    r = some (if now ≤ first.ts then first.price else asI128 (averageOf now first rest)) := by
  rw [twapOf] at h
  by_cases hw : now ≤ first.ts
  · rw [if_pos hw] at h ⊢
    exact (pure_eq_ok.mp h).symm
  rw [if_neg hw] at h ⊢
  obtain ⟨_,hl,h⟩ := bind_eq_ok.mp h
  obtain ⟨acc',hlp,h⟩ := bind_eq_ok.mp h
  rw [twapLead_eq_ok hl] at hlp
  have ha : acc' = Weighted.zero.addAll (segmentsOf now first rest) := by
    rw [twapLoop_eq_ok hlp]
    exact (foldl_append ..).symm
  have hp := weight_pos (Nat.lt_of_not_le hw) rest
  rw [← ha] at hp
  rw [if_neg hp.ne'] at h
  rw [averageOf,← ha]
  exact (pure_eq_ok.mp h).symm

lemma averageOf_between {a b} (hw : first.ts < now)
    (h : ∀ v ∈ segmentsOf now first rest, a ≤ v.1 ∧ v.1 ≤ b) :
    a ≤ averageOf now first rest ∧ averageOf now first rest ≤ b :=
  ((Weighted.between_zero a b).addAll h).div (weight_pos hw rest)

lemma mem_segments {v} (hv : v ∈ segments now cutoff series) :
    (∃ q, series.getLast? = some q ∧ q.ts < now ∧ v.1 = asU128 q.price) ∨
    ∃ q ∈ series.dropLast, ∃ next ∈ series, v.1 = (asU128 q.price + asU128 next.price) / 2 := by
  cases series with
  | nil => cases hv
  | cons q rest =>
    induction rest generalizing q with
    | nil =>
      rw [segments] at hv
      split at hv
      · next hc =>
        cases mem_singleton.mp hv
        exact .inl ⟨q,rfl,by omega,rfl⟩
      · cases hv
    | cons next rest ih =>
      -- a value of the tail is a value of the whole
      have ht : v ∈ segments now cutoff (next :: rest) →
          (∃ p, (q :: next :: rest).getLast? = some p ∧ p.ts < now ∧ v.1 = asU128 p.price) ∨
            ∃ p ∈ (q :: next :: rest).dropLast, ∃ p' ∈ q :: next :: rest,
              v.1 = (asU128 p.price + asU128 p'.price) / 2 := by
        intro hm
        obtain ⟨p,hp,hr⟩ | ⟨p,hp,p',hp',hr⟩ := ih next hm
        · exact .inl ⟨p,by rw [getLast?_cons_cons]; exact hp,hr⟩
        · exact .inr ⟨p,mem_cons_of_mem _ hp,p',mem_cons_of_mem _ hp',hr⟩
      rw [segments] at hv
      split at hv
      · exact ht hv
      obtain rfl | hv := mem_cons.mp hv
      · exact .inr ⟨q,mem_cons_self,next,mem_cons_of_mem _ mem_cons_self,rfl⟩
      · exact ht hv

lemma mem_leadOf {v} (hv : v ∈ leadOf cutoff first) : v.1 = asU128 first.price := by
  unfold leadOf at hv
  split at hv
  · cases mem_singleton.mp hv
    rfl
  · cases hv

def Positive (price : Int) : Prop := 0 < price ∧ i128.Fits price

lemma Positive.asU128_eq {price} (h : Positive price) : (asU128 price : Int) = price :=
  asU128_of_nonneg h.1.le h.2

lemma twapOf_between {lo hi P} (hl : 0 < lo)
    (hsr : ∀ q ∈ series, Positive q.price ∧ lo ≤ q.price ∧ q.price ≤ hi)
    (h : twapOf now series = .ok (some P)) : lo ≤ P ∧ P ≤ hi := by
  cases series with
  | nil => cases h
  | cons first rest =>
    obtain ⟨-,hs⟩ := hsr first mem_cons_self
    rw [Option.some.inj (twapOf_eq_ok h)]
    split
    · exact hs
    · next hw =>
      have hr : ∀ q ∈ first :: rest,
          lo.toNat ≤ asU128 q.price ∧ asU128 q.price ≤ (min hi i128.hi).toNat := by
        intro q hq
        obtain ⟨hp,_⟩ := hsr q hq
        have hc := hp.asU128_eq
        have hf := hp.2.2
        omega
      obtain ⟨_,_⟩ := averageOf_between (Nat.lt_of_not_le hw) fun v hv => by
        obtain hv | hv := mem_append.mp hv
        · rw [mem_leadOf hv]
          exact hr first mem_cons_self
        obtain ⟨q,hq,-,hvq⟩ | ⟨q,hq,next,hn,hvq⟩ := mem_segments hv
        · rw [hvq]
          exact hr q (mem_of_getLast? hq)
        have hq' := hr q ((dropLast_sublist _).subset hq)
        have hnext' := hr next hn
        omega
      have hm : (0 : Int) ≤ i128.hi := by decide
      rw [asI128_of_le (by omega)]
      omega

/-! ### The median -/

variable (arr : List Int)

lemma sortInPlace_eq : sortInPlace arr = (arr.reverse.insertionSort (· ≥ ·)).reverse := by
  unfold sortInPlace
  rw [← foldr_reverse]
  rfl

lemma sortInPlace_perm : (sortInPlace arr).Perm arr := by
  rw [sortInPlace_eq]
  exact (reverse_perm _).trans ((perm_insertionSort _ _).trans (reverse_perm arr))

lemma sortInPlace_sorted : (sortInPlace arr).Pairwise (· ≤ ·) := by
  rw [sortInPlace_eq,pairwise_reverse]
  exact pairwise_insertionSort _ _

lemma exists_freshMedian {s : Oracle} (h : minSources ≤ (s.freshPrices asset now).length) :
    ∃ m, s.freshMedian asset now = .ok m := by
  have hk : (sortInPlace (s.freshPrices asset now)).length / 2 <
      (sortInPlace (s.freshPrices asset now)).length := by
    rw [(sortInPlace_perm _).length_eq]
    exact Nat.div_lt_self (lt_of_lt_of_le (by decide) h) (by decide)
  simp only [freshMedian,eq_ok]
  exact ⟨_,h,getElem?_eq_getElem hk⟩

/-- **The median with few outliers**: while fewer than half of the fresh prices are outside of an
interval, the median is in it. -/
lemma freshMedian_between {s : Oracle} {m lo hi} (h : s.freshMedian asset now = .ok m)
    (ho : 2 * (s.freshPrices asset now).countP (fun x => decide (¬ (lo ≤ x ∧ x ≤ hi))) <
    (s.freshPrices asset now).length) : lo ≤ m ∧ m ≤ hi := by
  simp only [freshMedian,eq_ok] at h
  obtain ⟨-,hm⟩ := h
  obtain ⟨hk,rfl⟩ := List.getElem?_eq_some_iff.mp hm
  exact upperMedian_mem_Icc (sortInPlace_perm _) (sortInPlace_sorted _) ho hk

lemma getPriceResult_eq_ok {s : Oracle} {P} (h : s.getPriceResult now asset = .ok P) :
    ∃ m avg, s.freshMedian asset now = .ok m ∧ s.twap asset now = .ok avg ∧
    P = (avg.filter fun pr => decide (0 < pr)).getD m := by
  simp only [getPriceResult,bind_eq_ok,pure_eq_ok] at h
  obtain ⟨-,-,-,-,-,-,m,hm,avg,ha,rfl⟩ := h
  exact ⟨m,avg,hm,ha,rfl⟩

end Oracle

end DukaPay
