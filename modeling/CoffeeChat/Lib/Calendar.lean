import Mathlib.Algebra.Ring.Nat
import Mathlib.Data.List.Basic

/-!
# The Gregorian calendar

Dates of days, for all years before and after 1970. A day is its number, counted from 1 January
1970; `dateOf` is its date and `dayNumber` the way back (`dayNumber_dateOf`). Of two days of one
year, the one in the later month is at least as far away as the shortest month is long, up to the
days of the month (`months_apart`).
-/

namespace Lib.Calendar

/-- A leap year. -/
def isLeap (year : Int) : Bool := year % 4 = 0 && (year % 100 ≠ 0 || year % 400 = 0)

/-- The number of 1 January of a year. -/
def yearStart (year : Int) : Int :=
  365 * (year - 1) + (year - 1) / 4 - (year - 1) / 100 + (year - 1) / 400 - 719162

/-- The lengths of the months of a year. -/
def monthLengths (year : Int) : List Nat :=
  [31, if isLeap year then 29 else 28, 31, 30, 31, 30, 31, 31, 30, 31, 30, 31]

/-- The year of a day: a guess from the mean length of a year is off by at most one. -/
def yearOf (day : Int) : Int :=
  let guess := 400 * (day + 719162) / 146097 + 1
  if day < yearStart guess then guess - 1
  else if yearStart (guess + 1) ≤ day then guess + 1
  else guess

/-- The part of a row of parts that an offset falls into, and the offset within it. -/
def locate : List Nat → Nat → Nat × Nat
  | [], n => (0, n)
  | length :: lengths, n =>
    if n < length then (0, n)
    else ((locate lengths (n - length)).1 + 1, (locate lengths (n - length)).2)

/-- A date; the months are counted from 0 and the days of a month from 1. -/
structure Date where
  year : Int
  month : Nat
  day : Nat
  deriving DecidableEq, Repr

/-- The date of a day. -/
def dateOf (day : Int) : Date :=
  let year := yearOf day
  let place := locate (monthLengths year) (day - yearStart year).toNat
  ⟨year, place.1, place.2 + 1⟩

/-- The number of the day with a date. -/
def dayNumber (date : Date) : Int :=
  yearStart date.year + ((monthLengths date.year).take date.month).sum + date.day - 1

/-- The day of the week, counted from Sunday; 1 January 1970 was a Thursday. -/
def weekday (day : Int) : Nat := ((day + 4) % 7).toNat

/-! ## Years -/

/-- A year has as many days as its months. -/
theorem yearStart_succ (year : Int) :
    yearStart (year + 1) = yearStart year + (monthLengths year).sum := by
  have hlength : ((monthLengths year).sum : Int) = if isLeap year then 366 else 365 := by
    rw [monthLengths]
    split
    · rfl
    · rfl
  rw [hlength, yearStart, yearStart, isLeap]
  split
  · rename_i h
    simp only [Bool.and_eq_true, Bool.or_eq_true, decide_eq_true_eq] at h
    omega
  · rename_i h
    simp only [Bool.and_eq_true, Bool.or_eq_true, decide_eq_true_eq] at h
    omega

/-- A day lies in its year. -/
theorem yearStart_yearOf (day : Int) :
    yearStart (yearOf day) ≤ day ∧ day < yearStart (yearOf day + 1) := by
  have hbelow : yearStart (400 * (day + 719162) / 146097 + 1 - 1) ≤ day := by
    rw [yearStart]
    omega
  have habove : day < yearStart (400 * (day + 719162) / 146097 + 1 + 1 + 1) := by
    rw [yearStart]
    omega
  rw [yearOf]
  split
  · rename_i hlt
    refine ⟨hbelow, ?_⟩
    rw [Int.sub_add_cancel]
    exact hlt
  · rename_i hle
    split
    · rename_i hnext
      exact ⟨hnext, habove⟩
    · rename_i hlt
      exact ⟨Int.not_lt.mp hle, Int.not_le.mp hlt⟩

/-! ## Months -/

/-- An offset is what lies before its part and the offset within it. -/
theorem locate_sum (lengths : List Nat) (n : Nat) :
    (lengths.take (locate lengths n).1).sum + (locate lengths n).2 = n := by
  induction lengths generalizing n with
  | nil => exact Nat.zero_add n
  | cons length lengths ih =>
      rw [locate]
      split
      · exact Nat.zero_add n
      · rename_i h
        rw [List.take_succ_cons, List.sum_cons, Nat.add_assoc, ih]
        omega

/-- An offset within the row falls into one of its parts. -/
theorem locate_lt {lengths : List Nat} {n : Nat} (h : n < lengths.sum) :
    (locate lengths n).1 < lengths.length := by
  induction lengths generalizing n with
  | nil => cases h
  | cons length lengths ih =>
      rw [locate]
      split
      · exact Nat.succ_pos _
      · rw [List.sum_cons] at h
        exact Nat.succ_lt_succ (ih (by omega))

/-- Where every part is at least `least` long, a later part starts at least that much later. -/
theorem sum_take_lt {lengths : List Nat} {least : Nat} (hleast : ∀ n ∈ lengths, least ≤ n)
    {i j : Nat} (hij : i < j) (hj : j ≤ lengths.length) :
    (lengths.take i).sum + least ≤ (lengths.take j).sum := by
  have hi : i < lengths.length := Nat.lt_of_lt_of_le hij hj
  calc (lengths.take i).sum + least
      ≤ (lengths.take i).sum + lengths[i] := Nat.add_le_add_left (hleast _ (List.getElem_mem hi)) _
    _ = (lengths.take (i + 1)).sum := by
        rw [List.take_add_one, List.getElem?_eq_getElem hi, List.sum_append]
        rfl
    _ ≤ (lengths.take j).sum := by
        have hprefix : lengths.take (i + 1) <+: lengths.take j := List.take_prefix_take_left hij
        obtain ⟨rest, hrest⟩ := hprefix
        rw [← hrest, List.sum_append]
        exact Nat.le_add_right _ _

theorem monthLengths_ge (year : Int) : ∀ n ∈ monthLengths year, 28 ≤ n := by
  intro n hn
  rw [monthLengths] at hn
  cases hleap : isLeap year with
  | true =>
      rw [hleap] at hn
      revert n
      decide
  | false =>
      rw [hleap] at hn
      revert n
      decide

/-! ## Dates -/

/-- The date of a day is that of no other day. -/
theorem dayNumber_dateOf (day : Int) : dayNumber (dateOf day) = day := by
  obtain ⟨hle, -⟩ := yearStart_yearOf day
  have hsum := locate_sum (monthLengths (yearOf day)) (day - yearStart (yearOf day)).toNat
  rw [dateOf, dayNumber]
  show yearStart (yearOf day) + ((monthLengths (yearOf day)).take
    (locate (monthLengths (yearOf day)) (day - yearStart (yearOf day)).toNat).1).sum +
      ((locate (monthLengths (yearOf day)) (day - yearStart (yearOf day)).toNat).2 + 1 : Nat) - 1 =
        day
  omega

/-- There are twelve months. -/
theorem month_lt (day : Int) : (dateOf day).month < 12 := by
  obtain ⟨hle, hlt⟩ := yearStart_yearOf day
  rw [yearStart_succ] at hlt
  have hinside : (day - yearStart (yearOf day)).toNat < (monthLengths (yearOf day)).sum := by
    omega
  exact locate_lt hinside

/-- Two days of one month are as far apart as the days of the month say. -/
theorem month_eq {a b : Int} (hyear : (dateOf a).year = (dateOf b).year)
    (hmonth : (dateOf a).month = (dateOf b).month) :
    b - a = (dateOf b).day - (dateOf a).day := by
  have ha := dayNumber_dateOf a
  have hb := dayNumber_dateOf b
  rw [dayNumber] at ha hb
  rw [hyear, hmonth] at ha
  omega

/-- Two days of one year in different months are at least the length of the shortest month apart,
up to the days of the month. -/
theorem months_apart {a b : Int} (hyear : (dateOf a).year = (dateOf b).year)
    (hmonth : (dateOf a).month < (dateOf b).month) :
    28 + (dateOf b).day - (dateOf a).day ≤ b - a := by
  have ha := dayNumber_dateOf a
  have hb := dayNumber_dateOf b
  rw [dayNumber] at ha hb
  rw [hyear] at ha
  have hsum := sum_take_lt (monthLengths_ge (dateOf b).year) hmonth
    (Nat.le_of_lt (month_lt b))
  omega

end Lib.Calendar
