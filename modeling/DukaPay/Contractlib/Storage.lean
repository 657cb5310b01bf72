import Mathlib.Algebra.BigOperators.Ring.List
import Mathlib.Algebra.Order.BigOperators.Group.List
import Mathlib.Algebra.Order.Ring.Int
import Mathlib.Data.List.AList

/-! The storage of a contract is a finite map from keys to values. -/
namespace Contractlib
open List

abbrev Storage (K V : Type*) := AList (fun _ : K => V)

namespace Storage
variable {K V M : Type*}

section
variable [DecidableEq K]

def write (k : K) (o : Option V) (m : Storage K V) : Storage K V :=
  match o with
  | some v => m.insert k v
  | none => m.erase k

lemma lookup_write_self (k : K) (o : Option V) (m : Storage K V) : (write k o m).lookup k = o := by
  cases o with
  | none => exact AList.lookup_erase k m
  | some => exact AList.lookup_insert m

lemma lookup_insert_eq_some {j k v w} {m : Storage K V} :
    (m.insert k v).lookup j = some w ↔ j = k ∧ v = w ∨ j ≠ k ∧ m.lookup j = some w := by
  obtain rfl | h := eq_or_ne j k
  · simp [AList.lookup_insert]
  · simp [AList.lookup_insert_ne h,h]

/-- From `m` to `m'`, the key `k` was set to `o` and no other key changed. Several writes to one key
are one. -/
def Writes (k : K) (o : Option V) (m m' : Storage K V) : Prop :=
  ∀ j, m'.lookup j = if j = k then o else m.lookup j

lemma lookup_write_ne {j k} (h : j ≠ k) (o : Option V) (m : Storage K V) :
    (write k o m).lookup j = m.lookup j := by
  cases o with
  | none => exact AList.lookup_erase_ne h
  | some => exact AList.lookup_insert_ne h

lemma writes_insert (k : K) (v : V) (m : Storage K V) : Writes k (some v) m (m.insert k v) := by
  intro j
  split
  · next h =>
    subst h
    exact AList.lookup_insert m
  · next h => exact AList.lookup_insert_ne h

lemma writes_erase (k : K) (m : Storage K V) : Writes k none m (m.erase k) := by
  intro j
  split
  · next h =>
    subst h
    exact AList.lookup_erase j m
  · next h => exact AList.lookup_erase_ne h

lemma writes_self {k o} {m : Storage K V} (h : m.lookup k = o) : Writes k o m m := by
  intro j
  split
  · next hj =>
    subst hj
    exact h
  · rfl

namespace Writes
variable {k : K} {o o' : Option V} {m m' m'' : Storage K V}

lemma lookup_self (h : Writes k o m m') : m'.lookup k = o := by
  rw [h k,if_pos rfl]

lemma lookup_ne (h : Writes k o m m') {j} (hj : j ≠ k) : m'.lookup j = m.lookup j := by
  rw [h j,if_neg hj]

lemma trans (h : Writes k o m m') (h' : Writes k o' m' m'') : Writes k o' m m'' := by
  intro j
  rw [h' j]
  split
  · rfl
  · next hj => exact h.lookup_ne hj

end Writes

end

section
variable [AddCommMonoid M] (f : K → V → M)

def sumBy (m : Storage K V) : M :=
  (m.entries.map fun e => f e.1 e.2).sum

def part (k : K) (o : Option V) : M :=
  o.elim 0 (f k)

@[simp] lemma part_none (k) : part f k none = 0 := rfl

@[simp] lemma part_some (k v) : part f k (some v) = f k v := rfl

@[simp] lemma sumBy_empty : sumBy f (∅ : Storage K V) = 0 := rfl

variable [DecidableEq K]

lemma sum_kerase (k) (l : List (Sigma fun _ : K => V)) : (l.map fun e => f e.1 e.2).sum =
    part f k (l.dlookup k) + ((l.kerase k).map fun e => f e.1 e.2).sum := by
  induction l with
  | nil => simp
  | cons e l ih =>
    obtain ⟨a,_⟩ := e
    obtain rfl | h := eq_or_ne k a
    · simp
    rw [dlookup_cons_ne _ _ (by simpa using h),kerase_cons_ne (by simpa using h)]
    simp only [map_cons,sum_cons]
    rw [ih,add_left_comm]

lemma sumBy_erase (k m) : sumBy f m = part f k (m.lookup k) + sumBy f (m.erase k) :=
  sum_kerase f k m.entries

lemma sumBy_insert (k v) (m : Storage K V) :
    part f k (m.lookup k) + sumBy f (m.insert k v) = f k v + sumBy f m := by
  have hc : sumBy f (m.insert k v) = f k v + sumBy f (m.erase k) := by
    simp only [sumBy,AList.entries_insert,map_cons,sum_cons]
    rfl
  rw [hc,sumBy_erase f k m,add_left_comm]

lemma sumBy_write (k o) (m : Storage K V) :
    part f k (m.lookup k) + sumBy f (write k o m) = part f k o + sumBy f m := by
  cases o with
  | none =>
    rw [part_none,zero_add]
    exact (sumBy_erase f k m).symm
  | some v => exact sumBy_insert f k v m

lemma sumBy_eq_zero {f : K → V → M} {m : Storage K V}
    (h : ∀ k v, m.lookup k = some v → f k v = 0) : sumBy f m = 0 := by
  unfold sumBy
  apply sum_eq_zero
  intro x hx
  obtain ⟨⟨k,v⟩,he,rfl⟩ := mem_map.mp hx
  exact h k v ((mem_dlookup_iff m.nodupKeys).mpr he)

lemma sumBy_eq_of_lookup {m m' : Storage K V}
    (h : ∀ k, m.lookup k = m'.lookup k) : sumBy f m = sumBy f m' := by
  have hp : m.entries.Perm m'.entries := by
    apply lookup_ext m.nodupKeys m'.nodupKeys
    intro k v
    exact iff_of_eq (congrArg (v ∈ ·) (h k))
  exact (hp.map fun e => f e.1 e.2).sum_eq

lemma Writes.sumBy_eq {k o m m'}
    (h : Writes k o m m') : part f k (m.lookup k) + sumBy f m' = part f k o + sumBy f m := by
  have hs : ∀ j, m'.lookup j = (write k o m).lookup j := by
    intro j
    rw [h j]
    split
    · next hj =>
      subst hj
      exact (lookup_write_self j o m).symm
    · next hj => exact (lookup_write_ne hj o m).symm
  rw [sumBy_eq_of_lookup f hs]
  exact sumBy_write f k o m

end

section

def count (p : V → Bool) (m : Storage K V) : Nat := m.entries.countP fun e => p e.2

lemma count_eq_sumBy (p : V → Bool) (m : Storage K V) :
    count p m = sumBy (fun _ v => if p v then 1 else 0) m := by
  unfold count sumBy
  induction m.entries with
  | nil => rfl
  | cons e l ih => rw [countP_cons,map_cons,sum_cons,ih,Nat.add_comm]

lemma count_mono {p q : V → Bool} (h : ∀ v, p v = true → q v = true) (m : Storage K V) :
    count p m ≤ count q m :=
  countP_mono_left fun e _ => h e.2

def mapValues {W : Type*} (g : V → W) (m : Storage K V) : Storage K W :=
  ⟨m.entries.map fun e => ⟨e.1,g e.2⟩,m.nodupKeys.map₂ fun _ => g⟩

lemma lookup_mapValues [DecidableEq K] {W : Type*} (g : V → W) (m : Storage K V) (k : K) :
    (mapValues g m).lookup k = (m.lookup k).map g :=
  dlookup_map₂ (γ := fun _ => V) (δ := fun _ => W) (f := fun _ => g) k

lemma count_mapValues {W : Type*} (g : V → W) (p : W → Bool) (m : Storage K V) :
    count p (mapValues g m) = count (fun v => p (g v)) m :=
  countP_map

lemma Writes.mapValues [DecidableEq K] {W : Type*} (g : V → W) {k : K} {o : Option V}
    {m m' : Storage K V} (h : Writes k o m m') :
    Writes k (o.map g) (mapValues g m) (mapValues g m') := by
  intro j
  rw [lookup_mapValues,lookup_mapValues,h j]
  split <;> rfl

end

variable [DecidableEq K] {f g : K → V → ℤ} {m : Storage K V}

lemma sumBy_le_sumBy (h : ∀ k v, m.lookup k = some v → f k v ≤ g k v) : sumBy f m ≤ sumBy g m := by
  unfold sumBy
  apply sum_le_sum
  rintro ⟨k,v⟩ he
  exact h k v ((mem_dlookup_iff m.nodupKeys).mpr he)

lemma sumBy_nonneg (h : ∀ k v, m.lookup k = some v → 0 ≤ f k v) : 0 ≤ sumBy f m := by
  have h0 : sumBy (fun (_ : K) (_ : V) => (0 : ℤ)) m ≤ sumBy f m := sumBy_le_sumBy h
  simpa [sumBy] using h0

lemma le_sumBy (h : ∀ k v, m.lookup k = some v → 0 ≤ f k v) {k v}
    (hk : m.lookup k = some v) : f k v ≤ sumBy f m := by
  have hs := sumBy_erase f k m
  rw [hk,part_some] at hs
  have hr : 0 ≤ sumBy f (m.erase k) := by
    apply sumBy_nonneg
    intro j w hj
    obtain rfl | hjk := eq_or_ne j k
    · rw [AList.lookup_erase] at hj
      cases hj
    · rw [AList.lookup_erase_ne hjk] at hj
      exact h j w hj
  omega

omit [DecidableEq K] in
lemma sumBy_mul_right (f : K → V → ℤ) (c : ℤ) (m) :
    sumBy (fun k v => f k v * c) m = sumBy f m * c := by
  unfold sumBy
  exact sum_map_mul_right m.entries (fun e => f e.1 e.2) c

end Storage

end Contractlib
