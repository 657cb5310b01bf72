import DukaPay.Contractlib.Calendar
import DukaPay.JavaScript

/-! A `Date` counts milliseconds from the beginning of 1970, in UTC. Its ISO text has a year of four
digits, or a sign and six digits. -/
namespace DukaPay.JavaScript
open Contractlib.Calendar List Option

def padded (width n : Nat) : List Char := padStart width '0' (digits n)

def millisecondsPerDay : Nat := 86400000

def isoYear (year : Int) : List Char :=
  if 0 ≤ year ∧ year ≤ 9999 then padded 4 year.toNat
  else (if year < 0 then '-' else '+') :: padded 6 year.natAbs

def isoDay (d : Date) : List Char :=
  isoYear d.year ++ '-' :: (padded 2 d.month ++ '-' :: padded 2 d.dayOfMonth)

def isoTime (ms : Nat) : List Char :=
  padded 2 (ms / 3600000) ++ ':' :: (padded 2 (ms / 60000 % 60) ++ ':' ::
    (padded 2 (ms / 1000 % 60) ++ '.' :: (padded 3 (ms % 1000) ++ ['Z'])))

def isoText (t : Int) : List Char :=
  isoDay (date (t / millisecondsPerDay)) ++ 'T' :: isoTime (t % millisecondsPerDay).toNat

def toISOString (t : Int) : Option (List Char) :=
  if t.natAbs ≤ 8640000000000000 then some (isoText t) else none

/-! ### Reading -/

structure IsoParts where
  signed : Bool
  date : Date
  ms : Nat

def IsoParts.time (parts : IsoParts) : Int := parts.date.day * millisecondsPerDay + parts.ms

variable (text : List Char)

def readFields : Option Date :=
  match split '-' text with
  | [year,month,day] => some ⟨bigInt year,bigInt month,bigInt day⟩
  | _ => none

def readDay : Option (Bool × Date) :=
  match text with
  | '-' :: text => (readFields text).map fun d => (true,{ d with year := -d.year })
  | '+' :: text => (readFields text).map fun d => (true,d)
  | text => (readFields text).map fun d => (false,d)

def readTime : Option Nat :=
  match split ':' text with
  | [hours,minutes,rest] =>
    match split '.' rest with
    | [seconds,rest] =>
      match split 'Z' rest with
      | [ms,[]] =>
        some (bigInt hours * 3600000 + bigInt minutes * 60000 + bigInt seconds * 1000 + bigInt ms)
      | _ => none
    | _ => none
  | _ => none

def readIso : Option IsoParts :=
  match split 'T' text with
  | [day,time] => do
    let (signed,date) ← readDay day
    let ms ← readTime time
    some ⟨signed,date,ms⟩
  | _ => none

section

lemma isDigit_padded {wd n c} (h : c ∈ padded wd n) : c.isDigit = true := isDigit_padStart h

lemma notMem_padded {wd n} {c : Char} (hc : c.isDigit = false) : c ∉ padded wd n :=
  fun h => ne_of_isDigit (isDigit_padded h) hc rfl

lemma bigInt_padded (wd n) : bigInt (padded wd n) = n := by
  rw [padded,bigInt_padStart,bigInt_digits]

lemma padded_ne_nil (wd n) : padded wd n ≠ [] := by
  rw [padded,padStart]
  exact append_ne_nil_of_right_ne_nil _ (digits_ne_nil n)

lemma readFields_padded (wd year month day) :
    readFields (padded wd year ++ '-' :: (padded 2 month ++ '-' :: padded 2 day)) =
    some ⟨year,month,day⟩ := by
  rw [readFields,split_append (notMem_padded (by decide)),split_append (notMem_padded (by decide)),
    split_of_notMem (notMem_padded (by decide))]
  simp only [bigInt_padded]

lemma readDay_of_isDigit {c : Char} {text} (h : c.isDigit = true) :
    readDay (c :: text) = (readFields (c :: text)).map fun d => (false,d) := by
  have hm : c ≠ '-' := ne_of_isDigit h (by decide)
  have hp : c ≠ '+' := ne_of_isDigit h (by decide)
  rw [readDay]
  · rintro text ⟨⟩
    exact hm rfl
  · rintro text ⟨⟩
    exact hp rfl

lemma readDay_isoDay (d) : readDay (isoDay d) = some (!decide (0 ≤ d.year ∧ d.year ≤ 9999),d) := by
  rw [isoDay,isoYear]
  split
  · next hy =>
    obtain ⟨c,_,hc⟩ := exists_cons_of_ne_nil (padded_ne_nil 4 d.year.toNat)
    have hd : c.isDigit = true := isDigit_padded (hc ▸ mem_cons_self)
    have ht : (d.year.toNat : Int) = d.year := Int.toNat_of_nonneg hy.1
    have hr := readFields_padded 4 d.year.toNat d.month d.dayOfMonth
    rw [hc,cons_append] at hr ⊢
    rw [readDay_of_isDigit hd,hr,ht,map_some,decide_eq_true hy]
    rfl
  · next hy =>
    rw [decide_eq_false hy]
    split
    · next hn =>
      have ht : -(d.year.natAbs : Int) = d.year := by omega
      rw [cons_append,readDay,readFields_padded,map_some]
      simp only [ht]
      rfl
    · next hn =>
      have ht : (d.year.natAbs : Int) = d.year := by omega
      rw [cons_append,readDay,readFields_padded,map_some,ht]
      rfl

lemma readTime_isoTime (ms) : readTime (isoTime ms) = some ms := by
  have hs : split 'Z' (padded 3 (ms % 1000) ++ ['Z']) = [padded 3 (ms % 1000),[]] := by
    rw [split_append (notMem_padded (by decide))]
    rfl
  have hc : split '.' (padded 2 (ms / 1000 % 60) ++ '.' :: (padded 3 (ms % 1000) ++ ['Z'])) =
      [padded 2 (ms / 1000 % 60),padded 3 (ms % 1000) ++ ['Z']] := by
    rw [split_append (notMem_padded (by decide)),split_of_notMem]
    rw [mem_append,not_or]
    exact ⟨notMem_padded (by decide),by decide⟩
  have hm : ':' ∉ padded 2 (ms / 1000 % 60) ++ '.' :: (padded 3 (ms % 1000) ++ ['Z']) := by
    rw [mem_append,mem_cons,mem_append,not_or,not_or,not_or]
    exact ⟨notMem_padded (by decide),by decide,notMem_padded (by decide),by decide⟩
  rw [readTime,isoTime,split_append (notMem_padded (by decide)),
    split_append (notMem_padded (by decide)),split_of_notMem hm]
  simp only [hc,hs,bigInt_padded]
  exact congrArg some (by omega)

lemma notMem_isoDay (d) : 'T' ∉ isoDay d := by
  have hy : 'T' ∉ isoYear d.year := by
    rw [isoYear]
    split
    · exact notMem_padded (by decide)
    · rw [mem_cons,not_or]
      exact ⟨by split <;> decide,notMem_padded (by decide)⟩
  rw [isoDay,mem_append,mem_cons,mem_append,mem_cons,not_or,not_or,not_or,not_or]
  exact ⟨hy,by decide,notMem_padded (by decide),by decide,notMem_padded (by decide)⟩

lemma notMem_isoTime (ms) : 'T' ∉ isoTime ms := by
  simp only [isoTime,mem_append,mem_cons,not_or]
  exact ⟨notMem_padded (by decide),by decide,notMem_padded (by decide),by decide,
    notMem_padded (by decide),by decide,notMem_padded (by decide),by decide,by simp⟩

def isoParts (t : Int) : IsoParts :=
  let d := date (t / millisecondsPerDay)
  ⟨!decide (0 ≤ d.year ∧ d.year ≤ 9999),d,(t % millisecondsPerDay).toNat⟩

lemma readIso_isoText (t) : readIso (isoText t) = some (isoParts t) := by
  rw [readIso,isoText,split_append (notMem_isoDay _),split_of_notMem (notMem_isoTime _)]
  simp only [readDay_isoDay,readTime_isoTime]
  rfl

lemma time_isoParts (t) : (isoParts t).time = t := by
  have hp : (0 : Int) < millisecondsPerDay := by decide
  have hm := Int.emod_nonneg t (Int.ne_of_gt hp)
  rw [IsoParts.time,isoParts]
  simp only [day_date,Int.toNat_of_nonneg hm]
  exact Int.mul_comm _ _ ▸ Int.mul_ediv_add_emod t _

end

lemma plain_isoText (t) : Plain (isoText t) := by
  have hp : ∀ wd n, ∀ c ∈ padded wd n, escape c = [c] :=
    fun _ _ _ hc => escape_of_isDigit (isDigit_padded hc)
  have hy : ∀ year, ∀ c ∈ isoYear year, escape c = [c] := by
    intro year
    rw [isoYear]
    split
    · exact hp _ _
    · exact forall_mem_cons.mpr ⟨by split <;> rfl,hp _ _⟩
  simp only [Plain,isoText,isoDay,isoTime,forall_mem_append,forall_mem_cons]
  exact ⟨⟨hy _,rfl,hp _ _,rfl,hp _ _⟩,rfl,hp _ _,rfl,hp _ _,rfl,
    hp _ _,rfl,hp _ _,rfl,fun _ hc => by cases hc⟩

lemma isoText_ne_nil (t) : isoText t ≠ [] := append_ne_nil_of_right_ne_nil _ (cons_ne_nil _ _)

end DukaPay.JavaScript
