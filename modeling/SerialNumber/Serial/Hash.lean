import SerialNumber.Serial

/-! What a hash of a serial number sees, and sets of serial numbers. -/

namespace SerialNumber

/-- A number of so many bits, as it is fed to a hash. -/
structure HashWord where
  bits : Nat
  value : Nat
  deriving DecidableEq, Repr

/-- The value, then the width. -/
def Serial.hashInput (s : Serial) : List HashWord := [⟨64, s.value⟩, ⟨8, s.width.bits⟩]

/-- The items that are the same as none before them, with their places. -/
def firstOccurrences {α : Type} (same : α → α → Bool) (items : List α) : List (Nat × α) :=
  go 0 [] items
where
  go (i : Nat) (seen : List α) : List α → List (Nat × α)
    | [] => []
    | x :: xs =>
      if seen.any (same x) then go (i + 1) seen xs
      else (i, x) :: go (i + 1) (seen ++ [x]) xs

/-- The members of a set into which the items are put in turn. -/
def Serial.distinct (items : List Serial) : List (Nat × Serial) :=
  firstOccurrences (fun a b => decide (a ≈ b)) items

theorem Serial.hashInput_eq_iff {a b : Serial} : a.hashInput = b.hashInput ↔ a ≈ b := by
  simp [hashInput, equiv_iff, Width.ext_iff, and_comm]

end SerialNumber
