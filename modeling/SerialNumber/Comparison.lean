/-! Outcomes of comparisons that need not order their operands. -/

namespace SerialNumber

/-- `none` where the operands are not ordered. -/
abbrev Comparison := Option Ordering

namespace Comparison

def isLT : Comparison → Bool
  | some .lt => true
  | _ => false

def isLE : Comparison → Bool
  | some .lt | some .eq => true
  | _ => false

def isGT : Comparison → Bool
  | some .gt => true
  | _ => false

def isGE : Comparison → Bool
  | some .gt | some .eq => true
  | _ => false

/-- The outcome with the operands exchanged. -/
def swap (c : Comparison) : Comparison := c.map Ordering.swap

variable {c : Comparison}

theorem isLT_iff : c.isLT ↔ c = some .lt := by
  rcases c with _ | _ | _ | _ <;> simp [isLT]

theorem isLE_iff : c.isLE ↔ c = some .lt ∨ c = some .eq := by
  rcases c with _ | _ | _ | _ <;> simp [isLE]

theorem isGT_iff : c.isGT ↔ c = some .gt := by
  rcases c with _ | _ | _ | _ <;> simp [isGT]

theorem isGE_iff : c.isGE ↔ c = some .gt ∨ c = some .eq := by
  rcases c with _ | _ | _ | _ <;> simp [isGE]

@[simp] theorem swap_eq_none_iff : c.swap = none ↔ c = none := by
  rcases c with _ | _ | _ | _ <;> simp [swap]

end Comparison
end SerialNumber
