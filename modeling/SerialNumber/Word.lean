import Mathlib.Algebra.Order.Ring.Int
import SerialNumber.DateSerial.Json
import SerialNumber.DateSerial.Text
import SerialNumber.Serial.Json
import SerialNumber.Serial.Text

/-! Serial numbers on words of fixed size. A step whose result does not fit its word, that divides
by zero or that reaches past the end of a list gives `none`. -/

namespace SerialNumber

/-- What is stored of a serial number: a value of 64 bits, a width of 8 and a chain of 128. -/
structure Fields where
  value : Nat
  bits : Nat
  chain : Option Nat
  deriving DecidableEq, Repr

def Serial.fields (s : Serial) : Fields := ⟨s.value, s.width.bits, s.chain⟩

def DateSerial.fields (d : DateSerial) : Fields := d.serial.fields

@[simp] theorem Serial.fields_value (s : Serial) : s.fields.value = s.value := rfl

@[simp] theorem Serial.fields_bits (s : Serial) : s.fields.bits = s.width.bits := rfl

@[simp] theorem Serial.fields_chain (s : Serial) : s.fields.chain = s.chain := rfl

namespace Word

/-- A number as an unsigned word of so many bits. -/
def fit? (bits : Nat) (n : Int) : Option Nat :=
  if 0 ≤ n ∧ n < 2 ^ bits then some n.toNat else none

/-- A number as a signed word of so many bits. -/
def fitSigned? (bits : Nat) (n : Int) : Option Int :=
  if -2 ^ (bits - 1) ≤ n ∧ n < 2 ^ (bits - 1) then some n else none

/-- The bit at place `n` of an unsigned word. -/
def bit? (bits n : Nat) : Option Nat := if n < bits then fit? bits (2 ^ n) else none

/-- The bit at place `n` of a signed word. -/
def signedBit? (bits n : Nat) : Option Int := if n < bits then fitSigned? bits (2 ^ n) else none

/-- The remainder of words of 128 bits, which is not negative. The least signed one has none by
minus one. -/
def mod? (x m : Int) : Option Int :=
  if m = 0 ∨ (x = -2 ^ 127 ∧ m = -1) then none else some (x % m)

/-- Continues with what was read, unless there is a fault. -/
def onOk? {ε α β : Type} (x : Except ε α) (f : α → Option β) : Option (Except ε β) :=
  match x with
  | .ok a => (f a).map .ok
  | .error e => some (.error e)

/-! ### Serials -/

/-- Wraps a signed word of 128 bits into a space of `bits` bits. -/
def wrap? (x : Int) (bits : Nat) : Option Nat := do
  let x ← fitSigned? 128 x
  let m ← signedBit? 128 bits
  fit? 64 (← mod? x m)

def ofInt? (x : Int) (bits : Nat) : Option Fields := do
  return ⟨← wrap? x bits, ← fit? 8 bits, none⟩

def ofBits? (x : Int) (bits : Nat) : Option (Except InvalidWidth Fields) :=
  onOk? (Width.ofNat bits) fun w => ofInt? x w.bits

def ofBits!? (x : Int) (bits : Nat) : Option (Except Breach Fields) :=
  onOk? ((Width.ofNat bits).mapError fun _ => .widthOutOfRange) fun w => ofInt? x w.bits

def modulus? (bits : Nat) : Option Nat := bit? 128 bits

def maxValue? (bits : Nat) : Option Nat := do
  fit? 64 (← fit? 128 ((← modulus? bits) - 1))

def half? (bits : Nat) : Option Nat := do
  bit? 64 (← fit? 8 (bits - 1))

def maxAddend? (bits : Nat) : Option Nat := do
  fit? 64 ((← half? bits) - 1)

def rebased (s : Fields) : Fields := { s with chain := none }

def same (a b : Fields) : Bool := a.value = b.value ∧ a.bits = b.bits

def compare? (a b : Fields) : Option Comparison :=
  if a.bits ≠ b.bits then some none
  else do
    let half ← half? a.bits
    match compare a.value b.value with
    | .eq => some (some .eq)
    | .lt =>
      match compare (← fit? 64 (b.value - a.value)) half with
      | .lt => some (some .lt)
      | .gt => some (some .gt)
      | .eq => some none
    | .gt =>
      match compare (← fit? 64 (a.value - b.value)) half with
      | .lt => some (some .gt)
      | .gt => some (some .lt)
      | .eq => some none

def canonical (a b : Fields) : Ordering := (compare a.bits b.bits).then (compare a.value b.value)

/-- Takes an item over the one held if it is greater. -/
def greater? : Option Fields → Option Fields → Option (Option Fields)
  | held, none => some held
  | none, some x => some (some x)
  | some y, some x => do return some (if (← compare? x y).isGT then x else y)

def greatest? (items : List (Option Fields)) : Option (Option Fields) := items.foldlM greater? none

def add? (s n : Fields) : Option (Except AddError Fields) :=
  if s.bits ≠ n.bits then some (.error .widthMismatch)
  else do
    if (← maxAddend? s.bits) < n.value then some (.error .addendTooLarge)
    else
      let chain ← fit? 128 (s.chain.getD s.value + n.value)
      let modulus ← modulus? s.bits
      if s.chain.isSome ∧ modulus < chain then some (.error .chainOverflow)
      else
        let sum ← fit? 128 (s.value + n.value)
        let value ← fit? 64 (← mod? sum modulus)
        some (.ok ⟨value, s.bits, some chain⟩)

def text (s : Fields) : String := toString s.value

def ofText? (t : String) : Option (Except NumeralError Fields) :=
  onOk? (Numeral.read (2 ^ 32) t.toList) fun n => ofInt? n 32

def hashInput (s : Fields) : List HashWord := [⟨64, s.value⟩, ⟨8, s.bits⟩]

def toJson (s : Fields) : Json :=
  .object [("value", .integer s.value), ("serial_bits", .integer s.bits)]

def ofJson? (v : Json) : Option (Except Fault Fields) :=
  match v.record with
  | .ok r => (ofBits? r.1 r.2).map (·.mapError .invalidWidth)
  | .error e => some (.error e)

/-! ### Dates -/

/-- The date of a signed word of 64 bits. -/
def ofSeconds? (x : Int) : Option Fields := do ofInt? (← fitSigned? 64 x) 32

def seconds? (d : Fields) : Option Nat := fit? 32 d.value

/-- A calendar of four digits of the year has to hold the time. -/
def zoned? (d : Fields) : Option ZonedTime := do
  let z := ZonedTime.ofTimestamp (← fitSigned? 64 (← seconds? d)) 0
  if TimeLimits.fourDigit.Holds z then some z else none

def dateText? (d : Fields) : Option String := do return (← zoned? d).shown.stamp

/-- The bytes from one place up to another. -/
def slice? (start stop : Nat) (bs : List UInt8) : Option (List UInt8) :=
  if start ≤ stop ∧ stop ≤ bs.length then some ((bs.drop start).take (stop - start)) else none

/-- Takes one more digit, in a word of so many bits at every step. -/
def digit? (bits n : Nat) (b : UInt8) : Option Nat := do
  let tens ← fit? bits (n * 10)
  let digit ← fit? 8 (b.toNat - 48)
  fit? bits (tens + digit)

/-- The number that digits stand for. -/
def digits? (bits : Nat) (bs : List UInt8) : Option Nat := bs.foldlM (digit? bits) 0

/-- The fields of a stamp: the year in 32 bits, and each of the others in 8. -/
def stampBytes? (bs : List UInt8) : Option DateTime := do
  let year ← fitSigned? 32 (← field 32 0 4)
  let date : Date := ⟨year, ← field 8 4 6, ← field 8 6 8⟩
  let clock : Clock := ⟨← field 8 8 10, ← field 8 10 12, ← field 8 12 14⟩
  return ⟨date, clock, 0⟩
where
  field (bits start stop : Nat) : Option Nat := do digits? bits (← slice? start stop bs)

def isDigit (b : UInt8) : Bool := 48 ≤ b.toNat && b.toNat ≤ 57

def dateOfText? (t : String) : Option (Except IllegalDate Fields) :=
  let bs := t.toUTF8.data.toList
  if bs.length = 14 ∧ bs.all isDigit then do
    let time ← stampBytes? bs
    if time.Valid then (ofSeconds? time.seconds).map .ok else some (.error .illegal)
  else some (.error .illegal)

def dateToJson? (d : Fields) : Option Json := do return .integer (← seconds? d)

def dateOfJson? (v : Json) : Option (Except Fault Fields) :=
  onOk? (Json.unsigned 32 v) fun n => ofInt? n 32

end Word
end SerialNumber
