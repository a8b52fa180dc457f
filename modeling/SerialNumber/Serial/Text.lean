import SerialNumber.Numeral
import SerialNumber.Serial

/-! Serial numbers as text. -/

namespace SerialNumber

/-- Types whose values are read from text. -/
class FromText (α : Type) (ε : outParam Type) where
  fromText : String → Except ε α

namespace Serial

/-- The value in decimal. The width is not written. -/
def text (s : Serial) : String := toString s.value

/-- Reads the value of a serial of standard width. -/
def ofText (t : String) : Except NumeralError Serial :=
  (Numeral.read Width.standard.modulus t.toList).map fun n => ofInt .standard n

instance : FromText Serial NumeralError := ⟨ofText⟩

def chainText : Option Nat → String
  | none => "None"
  | some n => "Some(" ++ toString n ++ ")"

/-- All fields by name, with the chain that `text` leaves out. -/
def recordText (s : Serial) : String :=
  "Sna \x7b value: " ++ toString s.value ++ ", bits: " ++ toString s.width.bits ++
    ", chain: " ++ chainText s.chain ++ " \x7d"

end Serial
end SerialNumber
