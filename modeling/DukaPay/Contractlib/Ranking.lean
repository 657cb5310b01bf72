import Mathlib.Data.Finset.Card

/-! Ranking by repeated selection: candidates `0, …, n - 1` have keys. -/
namespace Contractlib
open List Option
variable {key : Nat → Int} {free : Nat → Bool} {n k : Nat}

def Outranks (key : Nat → Int) (i j : Nat) : Prop := key j < key i ∨ key j = key i ∧ i < j

def leader (key : Nat → Int) (free : Nat → Bool) : Nat → Option Nat
  | 0 => none
  | n + 1 =>
    match leader key free n with
    | none => if free n then some n else none
    | some j => if free n ∧ key j < key n then some n else some j

lemma leader_eq_none : leader key free n = none ↔ ∀ i < n, free i = false := by
  induction n with
  | zero => simp [leader]
  | succ n ih =>
    simp only [leader]
    split
    · next hn =>
      rw [ih] at hn
      constructor
      · intro h i hi
        rcases Nat.lt_succ_iff_lt_or_eq.mp hi with hl | rfl
        · exact hn i hl
        · by_contra hf
          simp [hf] at h
      · intro h
        simp [h n (Nat.lt_succ_self n)]
    · next j hs =>
      constructor
      · intro h
        split at h <;> cases h
      · intro h
        have hn := ih.mpr fun i hi => h i (Nat.lt_succ_of_lt hi)
        rw [hs] at hn
        cases hn

lemma leader_spec {j} (h : leader key free n = some j) :
    j < n ∧ free j = true ∧ ∀ i < n, free i = true → i ≠ j → Outranks key j i := by
  induction n generalizing j with
  | zero => cases h
  | succ n ih =>
    simp only [leader] at h
    split at h
    · next hn =>
      rw [leader_eq_none] at hn
      split at h
      · next hr =>
        cases h
        refine ⟨Nat.lt_succ_self n,hr,fun i hi hf hne => ?_⟩
        have ht : i < n := by omega
        rw [hn i ht] at hf
        cases hf
      · cases h
    · next m hs =>
      obtain ⟨hm,hfm,hrn⟩ := ih hs
      split at h
      · next hw =>
        cases h
        refine ⟨Nat.lt_succ_self n,hw.1,fun i hi hf hne => .inl ?_⟩
        by_cases him : i = m
        · rw [him]
          exact hw.2
        · have hb := hrn i (by omega) hf him
          exact (hb.elim le_of_lt fun he => he.1.le).trans_lt hw.2
      · next ho =>
        cases h
        refine ⟨Nat.lt_succ_of_lt hm,hfm,fun i hi hf hne => ?_⟩
        rcases Nat.lt_succ_iff_lt_or_eq.mp hi with ht | rfl
        · exact hrn i ht hf hne
        · have hl : key i ≤ key j := not_lt.mp fun ht => ho ⟨hf,ht⟩
          exact hl.lt_or_eq.imp id fun he => ⟨he,hm⟩

def standing (key : Nat → Int) (free : Nat → Bool) (n : Nat) : Option Nat × Int :=
  match leader key free n with
  | none => (none,-1)
  | some j => (some j,key j)

lemma standing_fst : (standing key free n).1 = leader key free n := by
  rw [standing]
  split
  · next h => exact h.symm
  · next h => exact h.symm

lemma standing_succ (hk : 0 ≤ key n) : standing key free (n + 1) =
    if free n ∧ (standing key free n).2 < key n then (some n,key n) else standing key free n := by
  rcases hl : leader key free n with _ | j
  · have ht : -1 < key n := by omega
    by_cases hf : free n <;> simp [standing,leader,hl,hf,ht]
  · by_cases hw : free n ∧ key j < key n <;> simp [standing,leader,hl,hw]

lemma foldl_range_eq_standing {round}
    (hr : ∀ i < n, round (standing key free i) i = standing key free (i + 1)) :
    (List.range n).foldl round (none,-1) = standing key free n := by
  induction n with
  | zero => rfl
  | succ n ih =>
    rw [range_succ,foldl_append,ih fun i hi => hr i (Nat.lt_succ_of_lt hi)]
    exact hr n (Nat.lt_succ_self n)

def marks (n : Nat) (chosen : List Nat) : List Bool :=
  (List.range n).map fun i => chosen.contains i

lemma replicate_eq_marks (n) : List.replicate n false = marks n [] := by
  simp [marks,map_const']

variable {chosen : List Nat}

lemma getD_marks {i} (hi : i < n) : (marks n chosen).getD i false = chosen.contains i := by
  simp [marks,hi]

lemma set_marks {j} : (marks n chosen).set j true = marks n (chosen ++ [j]) := by
  apply ext_getElem?
  intro i
  obtain rfl | hij := eq_or_ne j i
  · by_cases hj : j < n <;> simp [marks,hj]
  rw [getElem?_set_ne hij]
  by_cases hi : i < n
  · simp [marks,hi,Ne.symm hij]
  · simp [marks,hi]

def ranking (key : Nat → Int) (n : Nat) : Nat → List Nat
  | 0 => []
  | k + 1 => ranking key n k ++ (leader key (fun i => !(ranking key n k).contains i) n).toList

lemma exists_leader_of_lt (key) (h : chosen.length < n) :
    ∃ j, leader key (fun i => !chosen.contains i) n = some j := by
  rw [← isSome_iff_exists,isSome_iff_ne_none]
  intro hn
  rw [leader_eq_none] at hn
  have hs : Finset.range n ⊆ chosen.toFinset := fun i hi => by
    have hi' := hn i (Finset.mem_range.mp hi)
    simpa using hi'
  have hc := (Finset.card_le_card hs).trans (toFinset_card_le chosen)
  rw [Finset.card_range] at hc
  omega

lemma ranking_spec (hk : k ≤ n) :
    (ranking key n k).length = k ∧ (ranking key n k).Nodup ∧ (∀ i ∈ ranking key n k, i < n) ∧
    ∀ i ∈ ranking key n k, ∀ j < n, j ∉ ranking key n k → Outranks key i j := by
  induction k with
  | zero => simp [ranking]
  | succ k ih =>
    obtain ⟨hl,hn,hlt,hr⟩ := ih (by omega)
    have hs : (ranking key n k).length < n := by omega
    obtain ⟨m,hm⟩ := exists_leader_of_lt key hs
    obtain ⟨hmn,hf,hbs⟩ := leader_spec hm
    have hw : m ∉ ranking key n k := by simpa using hf
    simp only [ranking,hm,toList_some,length_append,length_singleton,hl,
      true_and,mem_append,mem_singleton,not_or]
    refine ⟨?_,?_,?_⟩
    · refine nodup_append.mpr ⟨hn,nodup_singleton m,?_⟩
      rintro a ha b hb rfl
      rw [mem_singleton] at hb
      exact hw (hb ▸ ha)
    · rintro i (hi | rfl)
      · exact hlt i hi
      · exact hmn
    · rintro i (hi | rfl) j hj ⟨ho,hne⟩
      · exact hr i hi j hj ho
      · exact hbs j hj (by simpa using ho) hne

lemma length_ranking (hk : k ≤ n) : (ranking key n k).length = k := (ranking_spec hk).1

lemma nodup_ranking (hk : k ≤ n) : (ranking key n k).Nodup := (ranking_spec hk).2.1

lemma lt_of_mem_ranking (hk : k ≤ n) {i} (hi : i ∈ ranking key n k) : i < n :=
  (ranking_spec hk).2.2.1 i hi

lemma ranking_outranks (hk : k ≤ n) {i j} (hi : i ∈ ranking key n k) (hj : j < n)
    (ho : j ∉ ranking key n k) : Outranks key i j :=
  (ranking_spec hk).2.2.2 i hi j hj ho

lemma take_ranking {m} (hk : k ≤ m) (hm : m ≤ n) : (ranking key n m).take k = ranking key n k := by
  induction m with
  | zero => simp_all [ranking]
  | succ m ih =>
    rcases Nat.le_succ_iff.mp hk with hl | rfl
    · rw [ranking,take_append_of_le_length (by rw [length_ranking (by omega)]; exact hl)]
      exact ih hl (by omega)
    · exact take_of_length_le (length_ranking hm).le

end Contractlib
