import SerialNumber.Reachable
import SerialNumber.Word

/-! The calls that the library answers, over unbounded integers and on words. -/

namespace SerialNumber

def Operand.fields (o : Operand) : Fields := o.underlying.fields

/-- A call, by the type of its answer. The seconds of `dateNow` are what the clock of the system
shows, before or after the start of 1970. -/
inductive Call : Type → Type where
  | ofInt (x : Int) : Call Fields
  | ofBits (x : Int) (bits : Nat) : Call (Except InvalidWidth Fields)
  | ofBits! (x : Int) (bits : Nat) : Call Fields
  | ofUInt32 (n : UInt32) : Call Fields
  | ofText (t : String) : Call (Except NumeralError Fields)
  | ofJson (v : Json) : Call (Except Fault Fields)
  | value (o : Operand) : Call Nat
  | width (o : Operand) : Call Nat
  | modulus (s : Serial) : Call Nat
  | maxValue (s : Serial) : Call Nat
  | half (s : Serial) : Call Nat
  | maxAddend (s : Serial) : Call Nat
  | rebased (s : Serial) : Call Fields
  | add (s n : Serial) : Call (Except AddError Fields)
  | same (a b : Operand) : Call Bool
  | compare (a b : Operand) : Call Comparison
  | canonical (a b : Operand) : Call Ordering
  | greatest (items : List (Option Serial)) : Call (Option Fields)
  | hashInput (o : Operand) : Call (List HashWord)
  | text (s : Serial) : Call String
  | toJson (s : Serial) : Call Json
  | dateOfUInt32 (n : UInt32) : Call Fields
  | dateOfSerial (s : Serial) : Call Fields
  | dateOfZoned (z : ZonedTime) : Call Fields
  | dateOfUniversal (z : ZonedTime) : Call Fields
  | dateNow (seconds : Int) : Call Fields
  | dateOfText (t : String) : Call (Except IllegalDate Fields)
  | dateOfJson (v : Json) : Call (Except Fault Fields)
  | seconds (d : DateSerial) : Call Nat
  | zoned (d : DateSerial) : Call ZonedTime
  | dateAdd (d : DateSerial) (n : Serial) : Call (Except AddError Fields)
  | dateGreatest (items : List (Option DateSerial)) : Call (Option Fields)
  | dateText (d : DateSerial) : Call String
  | dateToJson (d : DateSerial) : Call Json

namespace Call
variable {α : Type}

def answer : Call α → Except Breach α
  | .ofInt x => .ok (Serial.ofInt .standard x).fields
  | .ofBits x bits => .ok ((Serial.ofBits x bits).map Serial.fields)
  | .ofBits! x bits => (Serial.ofBits! x bits).map Serial.fields
  | .ofUInt32 n => .ok (Serial.ofUInt32 n).fields
  | .ofText t => .ok ((Serial.ofText t).map Serial.fields)
  | .ofJson v => .ok ((Serial.ofJson v).map Serial.fields)
  | .value o => .ok o.underlying.value
  | .width o => .ok o.underlying.width.bits
  | .modulus s => .ok s.width.modulus
  | .maxValue s => .ok s.width.maxValue
  | .half s => .ok s.width.half
  | .maxAddend s => .ok s.width.maxAddend
  | .rebased s => .ok s.rebased.fields
  | .add s n => .ok ((s.add n).map Serial.fields)
  | .same a b => .ok (a.Same b)
  | .compare a b => .ok (a.compare? b)
  | .canonical a b => .ok (SerialNumber.canonical a.underlying b.underlying)
  | .greatest items => .ok ((Serial.greatest? items).map Serial.fields)
  | .hashInput o => .ok o.underlying.hashInput
  | .text s => .ok s.text
  | .toJson s => .ok s.toJson
  | .dateOfUInt32 n => .ok (DateSerial.ofUInt32 n).fields
  | .dateOfSerial s => .ok (DateSerial.ofSerial s).fields
  | .dateOfZoned z => .ok (DateSerial.ofZoned z).fields
  | .dateOfUniversal z => .ok (DateSerial.ofUniversal z.universal).fields
  | .dateNow x => .ok (DateSerial.ofSeconds x).fields
  | .dateOfText t => .ok ((DateSerial.ofText t).map DateSerial.fields)
  | .dateOfJson v => .ok ((DateSerial.ofJson v).map DateSerial.fields)
  | .seconds d => .ok d.seconds
  | .zoned d => .ok d.zoned
  | .dateAdd d n => .ok ((d.add n).map DateSerial.fields)
  | .dateGreatest items => .ok ((DateSerial.greatest? items).map DateSerial.fields)
  | .dateText d => .ok d.text
  | .dateToJson d => .ok d.toJson

/-- What the types of a call's arguments allow. A serial to which something is added has been given
by calls. -/
def Admitted : Call α → Prop
  | .ofInt x | .ofBits x _ | .ofBits! x _ => IsArgument x
  | .add s _ => s.Reachable
  | .dateAdd d _ => d.Reachable
  | .dateOfZoned z => TimeLimits.fourDigit.Holds z
  | .dateOfUniversal z => TimeLimits.wide.Holds z
  | .dateNow x => -2 ^ 64 < x ∧ x < 2 ^ 64
  | _ => True

end Call

namespace Word
variable {α : Type}

/-- The answer on words. It is `none` if a step goes wrong. -/
def answer? : Call α → Option (Except Breach α)
  | .ofInt x => (ofInt? x 32).map .ok
  | .ofBits x bits => (ofBits? x bits).map .ok
  | .ofBits! x bits => ofBits!? x bits
  | .ofUInt32 n => (ofInt? n.toNat 32).map .ok
  | .ofText t => (ofText? t).map .ok
  | .ofJson v => (ofJson? v).map .ok
  | .value o => some (.ok o.fields.value)
  | .width o => some (.ok o.fields.bits)
  | .modulus s => (modulus? s.fields.bits).map .ok
  | .maxValue s => (maxValue? s.fields.bits).map .ok
  | .half s => (half? s.fields.bits).map .ok
  | .maxAddend s => (maxAddend? s.fields.bits).map .ok
  | .rebased s => some (.ok (rebased s.fields))
  | .add s n => (add? s.fields n.fields).map .ok
  | .same a b => some (.ok (same a.fields b.fields))
  | .compare a b => (compare? a.fields b.fields).map .ok
  | .canonical a b => some (.ok (canonical a.fields b.fields))
  | .greatest items => (greatest? (items.map (·.map Serial.fields))).map .ok
  | .hashInput o => some (.ok (hashInput o.fields))
  | .text s => some (.ok (text s.fields))
  | .toJson s => some (.ok (toJson s.fields))
  | .dateOfUInt32 n => (ofInt? n.toNat 32).map .ok
  | .dateOfSerial s => (ofInt? s.fields.value 32).map .ok
  | .dateOfZoned z => (ofSeconds? z.unixSeconds).map .ok
  | .dateOfUniversal z => (ofSeconds? z.universal.seconds).map .ok
  | .dateNow x => (ofInt? x 32).map .ok
  | .dateOfText t => (dateOfText? t).map .ok
  | .dateOfJson v => (dateOfJson? v).map .ok
  | .seconds d => (seconds? d.fields).map .ok
  | .zoned d => (zoned? d.fields).map .ok
  | .dateAdd d n => (add? d.fields n.fields).map .ok
  | .dateGreatest items => (greatest? (items.map (·.map DateSerial.fields))).map .ok
  | .dateText d => (dateText? d.fields).map .ok
  | .dateToJson d => (dateToJson? d.fields).map .ok

end Word
end SerialNumber
