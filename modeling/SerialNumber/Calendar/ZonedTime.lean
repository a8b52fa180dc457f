import SerialNumber.Calendar.DateTime

/-! Points in time as read on clocks ahead of or behind the universal one. -/

namespace SerialNumber

/-- What a clock shows that is `offset` seconds ahead of universal time. -/
structure ZonedTime where
  shown : DateTime
  offset : Int
  deriving DecidableEq, Repr

/-- The points in time that a calendar can hold. -/
structure TimeLimits where
  minYear : Int
  maxYear : Int
  maxOffset : Int
  maxNano : Nat
  deriving DecidableEq, Repr

namespace TimeLimits

/-- Years of four digits, and no leap seconds. -/
def fourDigit : TimeLimits := ⟨-9999, 9999, 93599, 999999999⟩

/-- A quarter of a million years either way, and any second may be a leap second. -/
def wide : TimeLimits := ⟨-262143, 262142, 86399, 1999999999⟩

def Holds (l : TimeLimits) (z : ZonedTime) : Prop :=
  z.shown.Valid ∧ l.minYear ≤ z.shown.date.year ∧ z.shown.date.year ≤ l.maxYear ∧
    -l.maxOffset ≤ z.offset ∧ z.offset ≤ l.maxOffset ∧ z.shown.nano ≤ l.maxNano

instance (l : TimeLimits) (z : ZonedTime) : Decidable (l.Holds z) := by
  unfold Holds; infer_instance

end TimeLimits

namespace ZonedTime

/-- The whole seconds of universal time from the start of 1970. -/
def unixSeconds (z : ZonedTime) : Int := z.shown.seconds - z.offset

/-- The universal time so many seconds and nanoseconds from the start of 1970. -/
def ofTimestamp (seconds : Int) (nano : Nat) : ZonedTime := ⟨.ofSeconds seconds nano, 0⟩

/-- The universal time so many nanoseconds from the start of 1970. -/
def ofNanos (n : Int) : ZonedTime :=
  ofTimestamp (n / 1000000000) (n % 1000000000).toNat

/-- What the universal clock shows at that moment. -/
def universal (z : ZonedTime) : DateTime := z.shown.shift (-z.offset)

end ZonedTime
end SerialNumber
