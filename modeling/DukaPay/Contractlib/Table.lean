import Mathlib.Data.List.Pairwise
import Mathlib.Tactic.Common

/-! A table holds rows of which no two clash, where rows clash if they agree on one of the unique
keys. -/
namespace Contractlib
open List
universe u v
variable {Row : Type u} {α : Type v}

structure Table (clash : Row → Row → Prop) where
  rows : List Row
  unique : rows.Pairwise fun r r' => ¬ clash r r'

namespace Table
variable {clash : Row → Row → Prop}

@[ext] lemma ext {t t' : Table clash} (h : t.rows = t'.rows) : t = t' := by
  cases t
  cases t'
  cases h
  rfl

def Admits (t : Table clash) (row : Row) : Prop := ∀ r ∈ t.rows, ¬ clash r row

lemma not_admits_of_subset {t t' : Table clash} {row} (hs : t.rows ⊆ t'.rows)
    (h : ¬ t.Admits row) : ¬ t'.Admits row := fun ha => h fun r hr => ha r (hs hr)

instance [DecidableRel clash] (t : Table clash) (row : Row) : Decidable (t.Admits row) :=
  inferInstanceAs (Decidable (∀ r ∈ t.rows, _))

def add (t : Table clash) (row : Row) (h : t.Admits row) : Table clash where
  rows := t.rows ++ [row]
  unique := by
    rw [List.pairwise_append]
    refine ⟨t.unique,List.pairwise_singleton _ _,fun r hr r' hr' => ?_⟩
    rw [List.mem_singleton.mp hr']
    exact h r hr

def delete (t : Table clash) (keep : Row → Bool) : Table clash where
  rows := t.rows.filter keep
  unique := t.unique.filter _

variable [DecidableRel clash]

def insert (t : Table clash) (row : Row) : Table clash :=
  if h : t.Admits row then t.add row h else t

def insertAll (t : Table clash) (rows : List Row) : Table clash := rows.foldl insert t

def admitted (key : α → Row) (t : Table clash) : List α → List α
  | [] => []
  | a :: as =>
    if t.Admits (key a) then a :: admitted key (t.insert (key a)) as else admitted key t as

variable {t : Table clash} {row : Row}

lemma insert_of_admits (h : t.Admits row) : (t.insert row).rows = t.rows ++ [row] := by
  rw [insert,dif_pos h]
  rfl

lemma insert_of_not_admits (h : ¬ t.Admits row) : t.insert row = t := dif_neg h

@[simp] lemma insertAll_nil : t.insertAll [] = t := rfl

@[simp] lemma insertAll_cons {rows} :
    t.insertAll (row :: rows) = (t.insert row).insertAll rows := rfl

lemma insertAll_append {rows rows'} :
    t.insertAll (rows ++ rows') = (t.insertAll rows).insertAll rows' := foldl_append ..

variable {key : α → Row}

lemma rows_insertAll (t : Table clash) (as : List α) :
    (t.insertAll (as.map key)).rows = t.rows ++ (admitted key t as).map key := by
  induction as generalizing t with
  | nil => exact (append_nil _).symm
  | cons a as ih =>
    rw [map_cons,insertAll_cons,ih,admitted]
    split
    · next h => rw [insert_of_admits h,map_cons,append_assoc,singleton_append]
    · next h => rw [insert_of_not_admits h]

variable (key) in
lemma admitted_append (t : Table clash) (as bs : List α) : admitted key t (as ++ bs) =
    admitted key t as ++ admitted key (t.insertAll (as.map key)) bs := by
  induction as generalizing t with
  | nil => rfl
  | cons a as ih =>
    rw [cons_append,admitted,admitted,map_cons,insertAll_cons]
    split
    · rw [ih,cons_append]
    · next h => rw [ih,insert_of_not_admits h]

variable (key) in
lemma admitted_sublist (t : Table clash) (as : List α) : (admitted key t as).Sublist as := by
  induction as generalizing t with
  | nil => exact .slnil
  | cons a as ih =>
    rw [admitted]
    split
    · exact (ih _).cons_cons a
    · exact (ih _).cons a

lemma subset_insertAll (t : Table clash) (as : List α) :
    t.rows ⊆ (t.insertAll (as.map key)).rows := by
  rw [rows_insertAll]
  exact subset_append_left ..

variable {as : List α}

lemma admitted_eq_nil (h : ∀ a ∈ as, ¬ t.Admits (key a)) : admitted key t as = [] := by
  induction as with
  | nil => rfl
  | cons a as ih =>
    rw [admitted,if_neg (h a (mem_cons_self ..))]
    exact ih fun b hb => h b (mem_cons_of_mem a hb)

lemma not_admits_insertAll (hr : ∀ r, clash r r) (t : Table clash) {a} (ha : a ∈ as) :
    ¬ (t.insertAll (as.map key)).Admits (key a) := by
  obtain ⟨bef,after,rfl⟩ := append_of_mem ha
  rw [map_append,insertAll_append,map_cons,insertAll_cons]
  refine not_admits_of_subset (subset_insertAll _ after) ?_
  by_cases h : (t.insertAll (bef.map key)).Admits (key a)
  · intro hd
    refine hd (key a) ?_ (hr _)
    rw [insert_of_admits h]
    exact mem_append_right _ (mem_singleton_self _)
  · rw [insert_of_not_admits h]
    exact h

lemma admits_of_mem_admitted {a} (ha : a ∈ admitted key t as) : t.Admits (key a) := by
  have hu := (t.insertAll (as.map key)).unique
  rw [rows_insertAll,pairwise_append] at hu
  exact fun r hr => hu.2.2 r hr _ (mem_map_of_mem ha)

lemma pairwise_admitted (t : Table clash) (as : List α) :
    (admitted key t as).Pairwise fun a b => ¬ clash (key a) (key b) := by
  have hu := (t.insertAll (as.map key)).unique
  rw [rows_insertAll,pairwise_append,pairwise_map] at hu
  exact hu.2.1

/-- **What of a sequence is inserted**: the items with a property, if those without it conflict with
the table, and those with it conflict neither with the table nor with each other. -/
lemma admitted_eq_filter {p} (hn : ∀ a ∈ as, p a = false → ¬ t.Admits (key a))
    (hy : ∀ a ∈ as, p a = true → t.Admits (key a))
    (hr : (as.filter p).Pairwise fun a b => ¬ clash (key a) (key b)) :
    admitted key t as = as.filter p := by
  induction as generalizing t with
  | nil => rfl
  | cons a as ih =>
    rw [forall_mem_cons] at hn hy
    rw [admitted]
    cases hp : p a with
    | false =>
      rw [if_neg (hn.1 hp),filter_cons_of_neg (by simp [hp])]
      rw [filter_cons_of_neg (by simp [hp])] at hr
      exact ih hn.2 hy.2 hr
    | true =>
      have ha := hy.1 hp
      rw [filter_cons_of_pos hp,pairwise_cons] at hr
      rw [if_pos ha,filter_cons_of_pos hp]
      have hs : (t.insert (key a)).rows = t.rows ++ [key a] := insert_of_admits ha
      refine congrArg (a :: ·) (ih ?_ ?_ hr.2)
      · intro b hb hpb
        refine not_admits_of_subset ?_ (hn.2 b hb hpb)
        rw [hs]
        exact subset_append_left ..
      · intro b hb hpb
        rw [Admits,hs,forall_mem_append,forall_mem_singleton]
        exact ⟨hy.2 b hb hpb,hr.1 b (mem_filter.mpr ⟨hb,hpb⟩)⟩

end Table

end Contractlib
