import Mathlib.Algebra.Order.Ring.Int
import SerialNumber.DateSerial.Json
import SerialNumber.DateSerial.Text
import SerialNumber.Operand
import SerialNumber.Serial.Json
import SerialNumber.Serial.Text

/-! The serials and dates that the library's operations can give. -/

namespace SerialNumber

/-- The integers that a caller can hand over: those of 128 bits with a sign. -/
def IsArgument (x : Int) : Prop := -2 ^ 127 ≤ x ∧ x < 2 ^ 127

/-- Points in time are those that their calendar can hold. -/
inductive Operand.Reachable : Operand → Prop
  | ofInt {x : Int} (hx : IsArgument x) : Reachable (.serial (.ofInt .standard x))
  | ofBits {x : Int} {bits : Nat} {s : Serial} (hx : IsArgument x)
      (h : Serial.ofBits x bits = .ok s) : Reachable (.serial s)
  | ofBits! {x : Int} {bits : Nat} {s : Serial} (hx : IsArgument x)
      (h : Serial.ofBits! x bits = .ok s) : Reachable (.serial s)
  | default : Reachable (.serial default)
  | ofUInt32 (n : UInt32) : Reachable (.serial (.ofUInt32 n))
  | ofText {t : String} {s : Serial} (h : Serial.ofText t = .ok s) : Reachable (.serial s)
  | ofJson {v : Json} {s : Serial} (h : Serial.ofJson v = .ok s) : Reachable (.serial s)
  | rebased {s : Serial} (hs : Reachable (.serial s)) : Reachable (.serial s.rebased)
  | add {s n t : Serial} (hs : Reachable (.serial s)) (hn : Reachable (.serial n))
      (h : s.add n = .ok t) : Reachable (.serial t)
  | greatest? {items : List (Option Serial)} {s : Serial}
      (hitems : ∀ t, some t ∈ items → Reachable (.serial t))
      (h : Serial.greatest? items = some s) : Reachable (.serial s)
  | ofDate {d : DateSerial} (hd : Reachable (.date d)) : Reachable (.serial d.serial)
  | dateDefault : Reachable (.date default)
  | dateOfUInt32 (n : UInt32) : Reachable (.date (.ofUInt32 n))
  | dateOfSerial {s : Serial} (hs : Reachable (.serial s)) : Reachable (.date (.ofSerial s))
  | dateOfText {t : String} {d : DateSerial} (h : DateSerial.ofText t = .ok d) :
      Reachable (.date d)
  | dateOfZoned {z : ZonedTime} (hz : TimeLimits.fourDigit.Holds z) :
      Reachable (.date (.ofZoned z))
  | dateOfUniversal {z : ZonedTime} (hz : TimeLimits.wide.Holds z) :
      Reachable (.date (.ofUniversal z.universal))
  | dateOfJson {v : Json} {d : DateSerial} (h : DateSerial.ofJson v = .ok d) : Reachable (.date d)
  | dateAdd {d e : DateSerial} {n : Serial} (hd : Reachable (.date d))
      (hn : Reachable (.serial n)) (h : d.add n = .ok e) : Reachable (.date e)
  | dateGreatest? {items : List (Option DateSerial)} {d : DateSerial}
      (hitems : ∀ e, some e ∈ items → Reachable (.date e))
      (h : DateSerial.greatest? items = some d) : Reachable (.date d)

def Serial.Reachable (s : Serial) : Prop := Operand.Reachable (.serial s)

def DateSerial.Reachable (d : DateSerial) : Prop := Operand.Reachable (.date d)

end SerialNumber
