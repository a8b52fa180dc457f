import SerialNumber.Json.Floating

/-! JSON values. -/

namespace SerialNumber

/-- A number is an integer if it is written without fraction and exponent and fits into 64 bits,
signed or not. Fields stand in the order in which they are written. -/
inductive Json where
  | null
  | bool (b : Bool)
  | integer (n : Int)
  | floating (x : Floating)
  | text (s : String)
  | list (items : List Json)
  | object (fields : List (String × Json))
  deriving Repr, Inhabited

namespace Json

/-- The value of a field. If there are several of that name, the last one counts. -/
def field? (name : String) (fields : List (String × Json)) : Option Json :=
  (fields.reverse.find? (·.1 == name)).map (·.2)

end Json
end SerialNumber
