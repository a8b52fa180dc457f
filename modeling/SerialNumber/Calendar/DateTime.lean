import SerialNumber.Calendar.Date

/-! Readings of a clock on a day, and seconds counted from the start of 1970. -/

namespace SerialNumber

/-- A time of day. -/
structure Clock where
  hour : Nat
  minute : Nat
  second : Nat
  deriving DecidableEq, Repr

/-- A date, a time of day and a fraction of the second in nanoseconds. A leap second is told by a
fraction of a whole second or more. -/
structure DateTime where
  date : Date
  clock : Clock
  nano : Nat
  deriving DecidableEq, Repr

namespace Clock

def Valid (c : Clock) : Prop := c.hour < 24 ∧ c.minute < 60 ∧ c.second < 60

instance (c : Clock) : Decidable c.Valid := by unfold Valid; infer_instance

def secondOfDay (c : Clock) : Nat := 3600 * c.hour + 60 * c.minute + c.second

def ofSecondOfDay (n : Nat) : Clock := ⟨n / 3600, n / 60 % 60, n % 60⟩

@[simp] theorem secondOfDay_ofSecondOfDay (n : Nat) : (ofSecondOfDay n).secondOfDay = n := by
  simp only [secondOfDay, ofSecondOfDay]
  omega

end Clock

namespace DateTime
variable {t : DateTime}

def Valid (t : DateTime) : Prop := t.date.Valid ∧ t.clock.Valid

instance (t : DateTime) : Decidable t.Valid := by unfold Valid; infer_instance

/-- The whole seconds from the start of 1970, read without leap seconds. -/
def seconds (t : DateTime) : Int := 86400 * t.date.dayNumber + t.clock.secondOfDay

def ofSeconds (n : Int) (nano : Nat) : DateTime where
  date := .ofDayNumber (n / 86400)
  clock := .ofSecondOfDay (n % 86400).toNat
  nano := nano

/-- Moves by less than a day either way, with a carry into the date. -/
def shift (t : DateTime) (k : Int) : DateTime :=
  let s := t.clock.secondOfDay + k
  if s < 0 then { t with date := t.date.previous, clock := .ofSecondOfDay (s + 86400).toNat }
  else if s < 86400 then { t with clock := .ofSecondOfDay s.toNat }
  else { t with date := t.date.next, clock := .ofSecondOfDay (s - 86400).toNat }

end DateTime
end SerialNumber
