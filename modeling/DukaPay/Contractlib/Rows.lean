import Mathlib.Data.List.Basic

/-! Reading and updating the row with a given key in a list of rows. -/
namespace Contractlib
open List
universe u v
variable {Row : Type u} {K : Type v} [DecidableEq K] (key : Row → K)

def selectRow (k : K) (rows : List Row) : Option Row := rows.find? fun r => key r = k

def updateRow (k : K) (f : Row → Row) (rows : List Row) : List Row :=
  rows.map fun r => if key r = k then f r else r

variable {key} {k : K} {rows : List Row} {f : Row → Row} {row : Row}

lemma key_of_selectRow (h : selectRow key k rows = some row) : key row = k := by
  simpa using find?_some h

lemma selectRow_updateRow_map {K'} [DecidableEq K'] {key' : Row → K'} {k'}
    (hf : ∀ r, key' (f r) = key' r) : selectRow key' k' (updateRow key k f rows) =
    (selectRow key' k' rows).map fun r => if key r = k then f r else r := by
  have hk : ∀ r, key' (if key r = k then f r else r) = key' r := by
    intro r
    split
    · exact hf r
    · rfl
  rw [selectRow,updateRow,find?_map]
  simp only [Function.comp_def,hk,selectRow]

lemma selectRow_updateRow (hf : ∀ r, key (f r) = key r) :
    selectRow key k (updateRow key k f rows) = (selectRow key k rows).map f := by
  rw [selectRow_updateRow_map hf]
  cases h : selectRow key k rows with
  | none => rfl
  | some => simp [key_of_selectRow h]

lemma map_updateRow {β : Type*} {g : Row → β} (hf : ∀ r, g (f r) = g r) :
    (updateRow key k f rows).map g = rows.map g := by
  rw [updateRow,map_map]
  refine map_congr_left fun r _ => ?_
  show g (if key r = k then f r else r) = g r
  split
  · exact hf r
  · rfl

lemma selectRow_of_mem (hn : (rows.map key).Nodup) (h : row ∈ rows) :
    selectRow key (key row) rows = some row := by
  induction rows with
  | nil => cases h
  | cons r rows ih =>
    rw [map_cons,nodup_cons] at hn
    rw [selectRow,find?_cons]
    rcases mem_cons.mp h with rfl | hm
    · simp
    · have hne : key r ≠ key row := fun he => hn.1 (he ▸ mem_map_of_mem hm)
      simpa [hne,selectRow] using ih hn.2 hm

end Contractlib
