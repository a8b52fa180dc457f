import SerialNumber.Json.Fault
import SerialNumber.Outcome
import SerialNumber.Serial

/-! The JSON form of serial numbers: value and width, by name or in that order. -/

namespace SerialNumber

/-- The value and the width that an object or a list holds, whatever they are. A fault of the width
field comes before one of the value field, and both before a field that is missing; in a list the
items are read from the front. -/
def Json.record : Json → Except Fault (Nat × Nat)
  | .object fields => do
    let bits ← (Json.field? "serial_bits" fields).mapM (Json.unsigned 8)
    let value ← (Json.field? "value" fields).mapM (Json.unsigned 64)
    match value, bits with
    | none, _ => throw (.missingField "value")
    | some _, none => throw (.missingField "serial_bits")
    | some value, some bits => pure (value, bits)
  | .list [] => throw (.tooFewItems 0)
  | .list [value] => do
    let _ ← Json.unsigned 64 value
    throw (.tooFewItems 1)
  | .list (value :: bits :: more) => do
    let value ← Json.unsigned 64 value
    let bits ← Json.unsigned 8 bits
    if more.isEmpty then pure (value, bits) else throw (.tooManyItems (more.length + 2))
  | v => throw (.wrongType v .record)

namespace Serial

/-- The chain is not written. -/
def toJson (s : Serial) : Json :=
  .object [("value", .integer s.value), ("serial_bits", .integer s.width.bits)]

def ofFields (value bits : Nat) : Except Fault Serial :=
  (ofBits value bits).mapError .invalidWidth

/-- The width is judged when both numbers have been read. -/
def ofJson (v : Json) : Except Fault Serial := v.record >>= fun r => ofFields r.1 r.2

theorem ofFields_of_ofJson {v : Json} {s : Serial} (h : ofJson v = .ok s) :
    ∃ value bits, ofFields value bits = .ok s := by
  obtain ⟨r, _, hs⟩ := Outcome.bind_eq_ok_iff.1 h
  exact ⟨r.1, r.2, hs⟩

end Serial
end SerialNumber
