import SerialNumber.Comparison
import SerialNumber.Maximum
import SerialNumber.Serial

/-! The partial order of serial numbers. -/

namespace SerialNumber.Serial
variable {a b : Serial}

/-- The smaller value comes first if it is less than half the ring away from the larger one, and
last if it is more than that away. Exactly half the ring apart, or of different width, two serials
are not ordered. -/
def compare? (a b : Serial) : Comparison :=
  if a.width ≠ b.width then none
  else
    match compare a.value b.value with
    | .eq => some .eq
    | .lt =>
      match compare (b.value - a.value) a.width.half with
      | .lt => some .lt
      | .gt => some .gt
      | .eq => none
    | .gt =>
      match compare (a.value - b.value) a.width.half with
      | .lt => some .gt
      | .gt => some .lt
      | .eq => none

instance : LT Serial := ⟨fun a b => (a.compare? b).isLT⟩

instance : LE Serial := ⟨fun a b => (a.compare? b).isLE⟩

instance : DecidableLT Serial := fun a b => inferInstanceAs (Decidable ((a.compare? b).isLT = true))

instance : DecidableLE Serial := fun a b => inferInstanceAs (Decidable ((a.compare? b).isLE = true))

/-- The greatest of the serials that are there. Of equal ones it is the first, and one that is not
ordered against the serial held does not replace it. -/
def greatest? (items : List (Option Serial)) : Option Serial :=
  greatest (fun a b => (a.compare? b).isGT) items

/-- The steps forward that lead from `a` to `b` on the ring of `a`. -/
def distance (a b : Serial) : Nat := ((b.value - a.value : Int) % a.width.modulus).toNat

theorem lt_iff : a < b ↔ (a.compare? b).isLT := .rfl

theorem le_iff : a ≤ b ↔ (a.compare? b).isLE := .rfl

theorem compare?_of_width_ne (h : a.width ≠ b.width) : a.compare? b = none := by
  simp [compare?, h]

end SerialNumber.Serial
