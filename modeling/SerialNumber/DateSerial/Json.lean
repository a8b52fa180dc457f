import SerialNumber.DateSerial
import SerialNumber.Json.Fault

/-! The JSON form of date serials: the bare number of seconds. -/

namespace SerialNumber.DateSerial

def toJson (d : DateSerial) : Json := .integer d.seconds

def ofJson (v : Json) : Except Fault DateSerial := (Json.unsigned 32 v).map fun n => ofSeconds n

end SerialNumber.DateSerial
