import SerialNumber.Calendar.Stamp
import SerialNumber.DateSerial
import SerialNumber.Serial.Text

/-! Date serials as text: the universal time in fourteen digits. -/

namespace SerialNumber

/-- A text that is not a date in fourteen digits. -/
inductive IllegalDate where
  | illegal
  deriving DecidableEq, Repr

def IllegalDate.message : IllegalDate → String
  | illegal => "illegal date"

def IllegalDate.recordText : IllegalDate → String
  | illegal => "IllegalDate(())"

namespace DateSerial

def text (d : DateSerial) : String := d.zoned.shown.stamp

/-- Reads a date of universal time. Those outside of 1970 to early 2106 wrap around. -/
def ofText (t : String) : Except IllegalDate DateSerial :=
  match DateTime.ofStamp? t with
  | some time => .ok (ofUniversal time)
  | none => .error .illegal

instance : FromText DateSerial IllegalDate := ⟨ofText⟩

def recordText (d : DateSerial) : String := "DateSna(" ++ d.serial.recordText ++ ")"

end DateSerial
end SerialNumber
