import SerialNumber.Json
import SerialNumber.Text.Quoted
import SerialNumber.Width

/-! What can be wrong with the JSON form of a serial number. -/

namespace SerialNumber

/-- What is to be read: a whole number of so many bits, or value and width together. -/
inductive Expected where
  | unsigned (bits : Nat)
  | record
  deriving DecidableEq, Repr

def Expected.text : Expected → String
  | unsigned bits => "u" ++ toString bits
  | record => "struct SnaRepr"

/-- The first thing found wrong. -/
inductive Fault where
  | wrongType (found : Json) (expected : Expected)
  | outOfRange (n : Int) (bits : Nat)
  | missingField (name : String)
  | tooFewItems (count : Nat)
  | tooManyItems (count : Nat)
  | invalidWidth (e : InvalidWidth)
  deriving Repr

namespace Json

/-- How a value is named that was not expected. -/
def described : Json → String
  | null => "null"
  | bool b => "boolean `" ++ toString b ++ "`"
  | integer n => "integer `" ++ toString n ++ "`"
  | floating x => "floating point `" ++ x.text ++ "`"
  | text s => "string " ++ quoted s
  | list _ => "sequence"
  | object _ => "map"

/-- Reads a whole number below `2 ^ bits`. -/
def unsigned (bits : Nat) : Json → Except Fault Nat
  | integer n => if 0 ≤ n ∧ n < Nat.pow 2 bits then .ok n.toNat else .error (.outOfRange n bits)
  | v => .error (.wrongType v (.unsigned bits))

end Json

def Fault.message : Fault → String
  | wrongType found expected =>
    "invalid type: " ++ found.described ++ ", expected " ++ expected.text
  | outOfRange n bits =>
    "invalid value: " ++ (Json.integer n).described ++ ", expected " ++
      (Expected.unsigned bits).text
  | missingField name => "missing field `" ++ name ++ "`"
  | tooFewItems count =>
    "invalid length " ++ toString count ++ ", expected struct SnaRepr with 2 elements"
  | tooManyItems count =>
    "invalid length " ++ toString count ++ ", expected fewer elements in array"
  | invalidWidth e => e.message

end SerialNumber
