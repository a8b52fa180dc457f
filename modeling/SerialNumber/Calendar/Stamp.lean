import SerialNumber.Calendar.DateTime
import SerialNumber.Numeral

/-! Date and time in fourteen digits, from the year to the second. -/

namespace SerialNumber.DateTime

/-- Four digits of the year and two of each smaller unit. -/
def stamp (t : DateTime) : String :=
  String.ofList <|
    Numeral.fixed 4 t.date.year.toNat ++ Numeral.fixed 2 t.date.month ++
    Numeral.fixed 2 t.date.day ++ Numeral.fixed 2 t.clock.hour ++
    Numeral.fixed 2 t.clock.minute ++ Numeral.fixed 2 t.clock.second

/-- The fields of a stamp, which need not be a valid time. -/
def stampFields (cs : List Char) : DateTime where
  date := ⟨Numeral.value (cs.take 4), field 4, field 6⟩
  clock := ⟨field 8, field 10, field 12⟩
  nano := 0
where
  field (start : Nat) : Nat := Numeral.value ((cs.drop start).take 2)

/-- Reads fourteen bytes, all of them digits, that name a valid time. -/
def ofStamp? (text : String) : Option DateTime :=
  if text.utf8ByteSize = 14 ∧ text.toList.all Char.isDigit ∧ (stampFields text.toList).Valid then
    some (stampFields text.toList)
  else none

end SerialNumber.DateTime
