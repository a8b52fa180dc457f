import SerialNumber.Calendar.ZonedTime
import SerialNumber.Canonical
import SerialNumber.Maximum
import SerialNumber.Serial.Hash
import SerialNumber.Serial.Order
import SerialNumber.Serial.Rejection

/-! Points in time as serial numbers: seconds from the start of 1970, modulo `2 ^ 32`. -/

namespace SerialNumber

/-- A serial of standard width that counts seconds. -/
@[ext] structure DateSerial where
  serial : Serial
  width_eq : serial.width = .standard
  deriving DecidableEq, Repr

namespace DateSerial
variable {d e : DateSerial} {n : Serial} {x : Int}

/-- Wraps seconds of any sign and size. -/
def ofSeconds (x : Int) : DateSerial := ⟨.ofInt .standard x, rfl⟩

instance : Inhabited DateSerial := ⟨ofSeconds 0⟩

def ofUInt32 (n : UInt32) : DateSerial := ⟨.ofUInt32 n, rfl⟩

/-- Takes the value of a serial of any width, without the additions that led to it. -/
def ofSerial (s : Serial) : DateSerial := ofSeconds s.value

def ofZoned (z : ZonedTime) : DateSerial := ofSeconds z.unixSeconds

/-- Takes what a universal clock shows. -/
def ofUniversal (t : DateTime) : DateSerial := ofSeconds t.seconds

def seconds (d : DateSerial) : Nat := d.serial.value

/-- The first point in time that the value can stand for, from 1970 to early 2106. -/
def zoned (d : DateSerial) : ZonedTime := .ofTimestamp d.seconds 0

def add (d : DateSerial) (n : Serial) : Except AddError DateSerial :=
  match d.serial.refusal? n with
  | some e => .error e
  | none => .ok ⟨d.serial.advance n.value, d.width_eq⟩

/-- Adds, and reports a refusal. -/
def addReporting (d : DateSerial) (n : Serial) : Reporting (Except AddError DateSerial) := do
  return (← d.serial.addReporting n).map fun t => ⟨t.1, t.2.trans d.width_eq⟩

/-- Dates are the same if their serials are, whatever led to them. -/
instance : Setoid DateSerial where
  r d e := d.serial ≈ e.serial
  iseqv.refl _ := Setoid.refl _
  iseqv.symm h := Setoid.symm h
  iseqv.trans h k := Setoid.trans h k

instance (d e : DateSerial) : Decidable (d ≈ e) := inferInstanceAs (Decidable (d.serial ≈ e.serial))

def compare? (d e : DateSerial) : Comparison := d.serial.compare? e.serial

instance : LT DateSerial := ⟨fun d e => (d.compare? e).isLT⟩

instance : LE DateSerial := ⟨fun d e => (d.compare? e).isLE⟩

instance : DecidableLT DateSerial :=
  fun d e => inferInstanceAs (Decidable ((d.compare? e).isLT = true))

instance : DecidableLE DateSerial :=
  fun d e => inferInstanceAs (Decidable ((d.compare? e).isLE = true))

instance : CanonicalOrder DateSerial where
  canonical d e := canonical d.serial e.serial

def hashInput (d : DateSerial) : List HashWord := d.serial.hashInput

/-- The members of a set into which the items are put in turn. -/
def distinct (items : List DateSerial) : List (Nat × DateSerial) :=
  firstOccurrences (fun d e => decide (d ≈ e)) items

/-- The greatest of the dates that are there. Of equal ones it is the first. -/
def greatest? (items : List (Option DateSerial)) : Option DateSerial :=
  greatest (fun d e => (d.compare? e).isGT) items

@[simp] theorem ofSeconds_serial : (ofSeconds x).serial = .ofInt .standard x := rfl

theorem seconds_lt (d : DateSerial) : d.seconds < 4294967296 := by
  have := d.serial.value_lt
  rwa [d.width_eq, Width.standard_modulus] at this

theorem equiv_iff : d ≈ e ↔ d.seconds = e.seconds := by
  have : d.serial ≈ e.serial ↔ d.serial.value = e.serial.value := by
    simp [Serial.equiv_iff, d.width_eq, e.width_eq]
  exact this

theorem ofSeconds_seconds_equiv (d : DateSerial) : ofSeconds d.seconds ≈ d := by
  have hlt := d.serial.value_lt
  rw [d.width_eq] at hlt
  exact equiv_iff.2 (Serial.ofInt_value_of_lt hlt)

theorem add_serial : (d.add n).map serial = d.serial.add n := by
  cases h : d.serial.refusal? n <;> simp [add, Serial.add, h, Except.map]

end DateSerial
end SerialNumber
