/-! Days of the proleptic Gregorian calendar, and their numbers counted from 1 January 1970. -/

namespace SerialNumber

/-- A day by its year (with a year zero), its month from 1 and its day of the month from 1. -/
structure Date where
  year : Int
  month : Nat
  day : Nat
  deriving DecidableEq, Repr

/-- Splits `n` along consecutive spans of the given lengths into the place of the span it falls in
and what is left within that span. -/
def splitSpans : List Nat → Nat → Nat × Nat
  | [], n => (0, n)
  | len :: lens, n =>
    if n < len then (0, n)
    else ((splitSpans lens (n - len)).1 + 1, (splitSpans lens (n - len)).2)

namespace Date

def isLeap (year : Int) : Bool :=
  year % 4 == 0 && (year % 100 != 0 || year % 400 == 0)

def monthLengths (year : Int) : List Nat :=
  [31, if isLeap year then 29 else 28, 31, 30, 31, 30, 31, 31, 30, 31, 30, 31]

/-- The days of a month, and zero for a month that does not exist. -/
def monthLength (year : Int) (month : Nat) : Nat := (monthLengths year).getD (month - 1) 0

def Valid (d : Date) : Prop :=
  1 ≤ d.month ∧ d.month ≤ 12 ∧ 1 ≤ d.day ∧ d.day ≤ monthLength d.year d.month

instance (d : Date) : Decidable d.Valid := by unfold Valid; infer_instance

/-- The days from 1 January of year zero to 1 January of `year`. -/
def daysBeforeYear (year : Int) : Int :=
  365 * year + (year + 3) / 4 - (year + 99) / 100 + (year + 399) / 400

def daysBeforeMonth (year : Int) (month : Nat) : Nat :=
  -- The zero is named because under Mathlib another instance of it is found.
  @List.sum Nat _ Zero.ofOfNat0 ((monthLengths year).take (month - 1))

/-- The days from 1 January 1970. -/
def dayNumber (d : Date) : Int :=
  daysBeforeYear d.year + daysBeforeMonth d.year d.month + (d.day - 1) - daysBeforeYear 1970

/-- The years of a cycle of 400, after which the calendar repeats. -/
def yearLengths : List Nat :=
  (List.range 400).map fun year : Nat => if isLeap year then 366 else 365

def daysInCycle : Nat := 146097

/-- The day of a number: its cycle, then its year within the cycle, then its month. -/
def ofDayNumber (n : Int) : Date :=
  let days := n + daysBeforeYear 1970
  let inCycle := splitSpans yearLengths (days % daysInCycle).toNat
  let year := 400 * (days / daysInCycle) + inCycle.1
  let inYear := splitSpans (monthLengths year) inCycle.2
  ⟨year, inYear.1 + 1, inYear.2 + 1⟩

def next (d : Date) : Date :=
  if d.day < monthLength d.year d.month then { d with day := d.day + 1 }
  else if d.month < 12 then ⟨d.year, d.month + 1, 1⟩
  else ⟨d.year + 1, 1, 1⟩

def previous (d : Date) : Date :=
  if 1 < d.day then { d with day := d.day - 1 }
  else if 1 < d.month then ⟨d.year, d.month - 1, monthLength d.year (d.month - 1)⟩
  else ⟨d.year - 1, 12, 31⟩

theorem daysBeforeYear_1970 : daysBeforeYear 1970 = 719528 := by decide

end Date
end SerialNumber
