import Mathlib.Tactic.Common

/-! The Gregorian calendar: days are counted from 1 January 1970. -/
namespace Contractlib.Calendar

structure Date where
  year : Int
  month : Nat
  dayOfMonth : Nat
deriving DecidableEq

/-- The place of a day: eras, centuries of the era, cycles of the century, years of the cycle and
days of the year. -/
structure Place where
  era : Int
  century : Int
  cycle : Int
  year : Int
  day : Int

/-- The last century of an era and the last year of a cycle are one day longer. Era 0 begins on 1
March of the year 0. -/
def place (day : Int) : Place :=
  let inEra := (day + 719468) % 146097
  let century := min (inEra / 36524) 3
  let inCentury := inEra - 36524 * century
  let inCycle := inCentury % 1461
  let year := min (inCycle / 365) 3
  { era := (day + 719468) / 146097
    century := century
    cycle := inCentury / 1461
    year := year
    day := inCycle - 365 * year }

def monthOf (day : Int) : Int := (5 * day + 2) / 153

def date (day : Int) : Date :=
  let p := place day
  let year := 400 * p.era + 100 * p.century + 4 * p.cycle + p.year
  let month := monthOf p.day
  { year := if month < 10 then year else year + 1
    month := (if month < 10 then month + 3 else month - 9).toNat
    dayOfMonth := (p.day - (153 * month + 2) / 5 + 1).toNat }

def Date.day (d : Date) : Int :=
  let year := if d.month ≤ 2 then d.year - 1 else d.year
  let month : Int := if d.month ≤ 2 then d.month + 9 else d.month - 3
  365 * year + year / 4 - year / 100 + year / 400 + ((153 * month + 2) / 5 + d.dayOfMonth - 1) -
    719468

structure Place.Of (p : Place) (n : Int) : Prop where
  century : 0 ≤ p.century ∧ p.century ≤ 3
  cycle : 0 ≤ p.cycle ∧ p.cycle ≤ 24
  year : 0 ≤ p.year ∧ p.year ≤ 3
  day : 0 ≤ p.day ∧ p.day ≤ 365
  sum : 146097 * p.era + 36524 * p.century + 1461 * p.cycle + 365 * p.year + p.day = n + 719468

lemma place_of (day) : (place day).Of day := by
  constructor <;> simp only [place] <;> omega

lemma Place.Of.daysBefore {p : Place} {day} (h : p.Of day) :
    let year := 400 * p.era + 100 * p.century + 4 * p.cycle + p.year
    365 * year + year / 4 - year / 100 + year / 400 + p.day = day + 719468 := by
  obtain ⟨_,_,_,_,_⟩ := h
  have hq : (400 * p.era + 100 * p.century + 4 * p.cycle + p.year) / 4 =
      100 * p.era + 25 * p.century + p.cycle := by omega
  have hh : (400 * p.era + 100 * p.century + 4 * p.cycle + p.year) / 100 =
      4 * p.era + p.century := by omega
  have he : (400 * p.era + 100 * p.century + 4 * p.cycle + p.year) / 400 = p.era := by omega
  simp only [hq,hh,he]
  omega

lemma day_date (day) : (date day).day = day := by
  have hp := place_of day
  have hb := hp.daysBefore
  have hm : 0 ≤ monthOf (place day).day ∧ monthOf (place day).day ≤ 11 := by
    have := hp.day
    rw [monthOf]
    omega
  have hd : (153 * monthOf (place day).day + 2) / 5 ≤ (place day).day := by
    have := hp.day
    rw [monthOf]
    omega
  simp only [date,Date.day]
  by_cases h : monthOf (place day).day < 10
  · have hl : ¬ (monthOf (place day).day + 3).toNat ≤ 2 := by omega
    simp only [if_pos h,if_neg hl]
    omega
  have he : (monthOf (place day).day - 9).toNat ≤ 2 := by omega
  simp only [if_neg h,if_pos he,Int.add_sub_cancel]
  omega

lemma day_bounds {day} (h : 1 ≤ (date day).year ∧ (date day).year ≤ 9999) :
    -719468 ≤ day ∧ day ≤ 2933262 := by
  obtain ⟨_,_,_,_,_⟩ := place_of day
  simp only [date] at h
  constructor <;> split at h <;> omega

end Contractlib.Calendar
