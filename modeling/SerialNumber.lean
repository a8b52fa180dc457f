import SerialNumber.Calendar.Date
import SerialNumber.Calendar.DateTime
import SerialNumber.Calendar.Stamp
import SerialNumber.Calendar.ZonedTime
import SerialNumber.Call
import SerialNumber.Canonical
import SerialNumber.Comparison
import SerialNumber.DateSerial
import SerialNumber.DateSerial.Json
import SerialNumber.DateSerial.Text
import SerialNumber.Json
import SerialNumber.Json.Fault
import SerialNumber.Json.Floating
import SerialNumber.Json.Reader
import SerialNumber.Json.Writer
import SerialNumber.Maximum
import SerialNumber.Numeral
import SerialNumber.Operand
import SerialNumber.Outcome
import SerialNumber.Proofs.Appearance
import SerialNumber.Proofs.Arc
import SerialNumber.Proofs.Ascent
import SerialNumber.Proofs.CalendarAddition
import SerialNumber.Proofs.Call
import SerialNumber.Proofs.Carry
import SerialNumber.Proofs.Chain
import SerialNumber.Proofs.Chronology
import SerialNumber.Proofs.Coherence
import SerialNumber.Proofs.Conversion
import SerialNumber.Proofs.DateText
import SerialNumber.Proofs.DayNumber
import SerialNumber.Proofs.Distance
import SerialNumber.Proofs.Greatest
import SerialNumber.Proofs.GreatestSerial
import SerialNumber.Proofs.Grouping
import SerialNumber.Proofs.HashSet
import SerialNumber.Proofs.JsonFault
import SerialNumber.Proofs.JsonForm
import SerialNumber.Proofs.JsonText
import SerialNumber.Proofs.Positions
import SerialNumber.Proofs.Rebasing
import SerialNumber.Proofs.Repetition
import SerialNumber.Proofs.Reports
import SerialNumber.Proofs.Residue
import SerialNumber.Proofs.Run
import SerialNumber.Proofs.SecondCount
import SerialNumber.Proofs.SerialText
import SerialNumber.Proofs.Shift
import SerialNumber.Proofs.Sorting
import SerialNumber.Proofs.Stamp
import SerialNumber.Proofs.TextOrder
import SerialNumber.Proofs.Word
import SerialNumber.Proofs.WordDate
import SerialNumber.Reachable
import SerialNumber.Serial
import SerialNumber.Serial.Addition
import SerialNumber.Serial.Hash
import SerialNumber.Serial.Json
import SerialNumber.Serial.Order
import SerialNumber.Serial.Rejection
import SerialNumber.Serial.Text
import SerialNumber.Text.Hidden
import SerialNumber.Text.Quoted
import SerialNumber.Width
import SerialNumber.Word
