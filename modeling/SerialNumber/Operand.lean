import SerialNumber.DateSerial

/-! Serials and dates compared with each other. -/

namespace SerialNumber

/-- A serial number of either kind. -/
inductive Operand where
  | serial (s : Serial)
  | date (d : DateSerial)
  deriving DecidableEq, Repr

namespace Operand
variable {a b c : Operand}

/-- The serial number that a comparison looks at. -/
def underlying : Operand → Serial
  | serial s => s
  | date d => d.serial

def Same : Operand → Operand → Prop
  | serial a, serial b => a ≈ b
  | serial a, date b => a ≈ b.serial
  | date a, serial b => a.serial ≈ b
  | date a, date b => a ≈ b

instance : DecidableRel Same := fun a b => by
  cases a <;> cases b <;> unfold Same <;> infer_instance

def compare? : Operand → Operand → Comparison
  | serial a, serial b => a.compare? b
  | serial a, date b => a.compare? b.serial
  | date a, serial b => a.serial.compare? b
  | date a, date b => a.compare? b

theorem same_iff : Same a b ↔ a.underlying ≈ b.underlying := by
  cases a <;> cases b <;> rfl

theorem compare?_eq : compare? a b = a.underlying.compare? b.underlying := by
  cases a <;> cases b <;> rfl

end Operand
end SerialNumber
