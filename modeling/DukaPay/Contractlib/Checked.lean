import Mathlib.Tactic.Common

/-! Fixed-width integers are modelled by `Int` (signed) and `Nat` (unsigned), with the width kept as
the range an operation's exact result is checked against. -/
namespace Contractlib

structure IntType where
  lo : Int
  hi : Int

namespace IntType
variable (T : IntType)

def Fits (x : Int) : Prop := T.lo ≤ x ∧ x ≤ T.hi

instance (x : Int) : Decidable (T.Fits x) := inferInstanceAs (Decidable (_ ∧ _))

def check (x : Int) : Option Int := if T.Fits x then some x else none

def checkedAdd (x y : Int) : Option Int := T.check (x + y)

def checkedSub (x y : Int) : Option Int := T.check (x - y)

def checkedMul (x y : Int) : Option Int := T.check (x * y)

def checkedNeg (x : Int) : Option Int := T.check (-x)

def checkedAbs (x : Int) : Option Int := T.check x.natAbs

def saturatingSub (x y : Int) : Int := max T.lo (min T.hi (x - y))

variable {T} {x y z : Int}

lemma check_eq_some : T.check x = some z ↔ T.Fits x ∧ x = z := by
  unfold check
  split
  · next h => simp [h]
  · next h => simp [h]

lemma check_of_fits (h : T.Fits x) : T.check x = some x := by
  simp [check,h]

@[simp] lemma checkedAdd_eq_some : T.checkedAdd x y = some z ↔ T.Fits (x + y) ∧ x + y = z :=
  check_eq_some

@[simp] lemma checkedSub_eq_some : T.checkedSub x y = some z ↔ T.Fits (x - y) ∧ x - y = z :=
  check_eq_some

@[simp] lemma checkedMul_eq_some : T.checkedMul x y = some z ↔ T.Fits (x * y) ∧ x * y = z :=
  check_eq_some

end IntType

structure NatType where
  hi : Nat

namespace NatType
variable (T : NatType)

def checkedAdd (m n : Nat) : Option Nat := if m + n ≤ T.hi then some (m + n) else none

def checkedMul (m n : Nat) : Option Nat := if m * n ≤ T.hi then some (m * n) else none

def saturatingAdd (m n : Nat) : Nat := min (m + n) T.hi

variable {T} {m n k : Nat}

@[simp] lemma checkedAdd_eq_some : T.checkedAdd m n = some k ↔ m + n ≤ T.hi ∧ m + n = k := by
  unfold checkedAdd
  split
  · next h => simp [h]
  · next h => simp [h]

@[simp] lemma checkedMul_eq_some : T.checkedMul m n = some k ↔ m * n ≤ T.hi ∧ m * n = k := by
  unfold checkedMul
  split
  · next h => simp [h]
  · next h => simp [h]

lemma lt_saturatingAdd : k < T.saturatingAdd m n ↔ k < m + n ∧ k < T.hi := Nat.lt_min

lemma add_le_of_saturatingAdd_le (h : T.saturatingAdd m n ≤ k) (hk : k < T.hi) : m + n ≤ k := by
  unfold saturatingAdd at h
  omega

end NatType

end Contractlib
