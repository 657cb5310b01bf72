import Mathlib.Data.List.Sort

/-! A timeline lists the events of each point of time. -/
namespace Contractlib
open List
universe u

structure Timeline (E : Type u) (time : E → Nat) where
  eventsAt : Nat → List E
  time_eq : ∀ t, ∀ e ∈ eventsAt t, time e = t

namespace Timeline
variable {E : Type u} {time : E → Nat} (T : Timeline E time)

def between (first last : Nat) : List E :=
  (List.range' first (last + 1 - first)).flatMap T.eventsAt

variable {T} {first last horizon : Nat}

lemma mem_between {e} : e ∈ T.between first last ↔
    (first ≤ time e ∧ time e ≤ last) ∧ e ∈ T.eventsAt (time e) := by
  rw [between,mem_flatMap]
  constructor
  · rintro ⟨t,ht,he⟩
    obtain rfl := T.time_eq t e he
    rw [mem_range'_1] at ht
    exact ⟨by omega,he⟩
  · rintro ⟨hr,he⟩
    exact ⟨time e,mem_range'_1.mpr (by omega),he⟩

lemma pairwise_between : (T.between first last).Pairwise fun a b => time a ≤ time b := by
  rw [between,pairwise_flatMap]
  refine ⟨fun t _ => ?_,?_⟩
  · refine pairwise_iff_forall_sublist.mpr fun {a b} hs => ?_
    rw [T.time_eq t a (hs.subset (mem_cons_self ..)),T.time_eq t b (hs.subset (by simp))]
  · refine (pairwise_lt_range' 1).imp fun {t t'} hl a ha b hb => ?_
    rw [T.time_eq t a ha,T.time_eq t' b hb]
    exact hl.le

lemma filter_between (h : last ≤ horizon) :
    (T.between first horizon).filter (fun e => time e ≤ last) = T.between first last := by
  have hs : List.range' first (horizon + 1 - first) = List.range' first (last + 1 - first) ++
        List.range' (first + (last + 1 - first)) (horizon + 1 - first - (last + 1 - first)) := by
    rw [List.range'_append_1]
    congr 1
    omega
  have hf : ∀ e ∈ T.between first last, decide (time e ≤ last) = true := by
    intro e he
    exact decide_eq_true (mem_between.mp he).1.2
  rw [between] at hf
  rw [between,hs,flatMap_append,filter_append,filter_eq_self.mpr hf,
    between,append_right_eq_self,filter_eq_nil_iff]
  intro e he
  obtain ⟨t,ht,he⟩ := mem_flatMap.mp he
  rw [mem_range'_1] at ht
  rw [T.time_eq t e he,decide_eq_true_eq]
  omega

lemma between_congr {T' : Timeline E time} (h : ∀ t ≤ last, T.eventsAt t = T'.eventsAt t) :
    T.between first last = T'.between first last := by
  rw [between,between]
  refine flatMap_congr fun t ht => h t ?_
  rw [mem_range'_1] at ht
  omega

lemma between_eq_nil (h : last < first) : T.between first last = [] := by
  rw [between,Nat.sub_eq_zero_of_le h]
  rfl

end Timeline

lemma filter_append_of_passed {E : Type u} {time : E → Nat} {last} {es l : List E}
    (h : ∀ e ∈ l, last < time e) :
    (es ++ l).filter (fun e => time e ≤ last) = es.filter fun e => time e ≤ last := by
  rw [filter_append,append_right_eq_self,filter_eq_nil_iff]
  intro e he hl
  exact absurd (of_decide_eq_true hl) (not_le.mpr (h e he))

lemma foldl_max_le {E : Type u} {time : E → Nat} {es : List E} {m bound} (hm : m ≤ bound)
    (h : ∀ e ∈ es, time e ≤ bound) : es.foldl (fun m e => max m (time e)) m ≤ bound := by
  induction es generalizing m with
  | nil => exact hm
  | cons e es ih =>
    rw [forall_mem_cons] at h
    exact ih (max_le hm h.1) h.2

end Contractlib
