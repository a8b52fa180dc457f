/-! Widths of serial number spaces. -/

namespace SerialNumber

/-- The width of a number space in bits. A space of width `w` holds `0` to `2 ^ w - 1`. -/
@[ext] structure Width where
  bits : Nat
  one_le : 1 ≤ bits := by decide
  le_max : bits ≤ 64 := by decide
  deriving DecidableEq, Repr

/-- A number of bits that no space can have. -/
structure InvalidWidth where
  bits : Nat
  deriving DecidableEq, Repr

def InvalidWidth.message (e : InvalidWidth) : String :=
  "invalid serial number width " ++ toString e.bits

def InvalidWidth.recordText (e : InvalidWidth) : String :=
  "InvalidSerialBits(" ++ toString e.bits ++ ")"

namespace Width

/-- The width used where none is given. -/
def standard : Width := { bits := 32 }

instance : Inhabited Width := ⟨standard⟩

def ofNat (bits : Nat) : Except InvalidWidth Width :=
  if h : 1 ≤ bits ∧ bits ≤ 64 then .ok ⟨bits, h.1, h.2⟩ else .error ⟨bits⟩

/-- The number of values in the space. -/
def modulus (w : Width) : Nat := Nat.pow 2 w.bits

/-- The distance at which two values cannot be ordered. -/
def half (w : Width) : Nat := Nat.pow 2 (w.bits - 1)

def maxValue (w : Width) : Nat := w.modulus - 1

/-- The largest amount that can be added at once. -/
def maxAddend (w : Width) : Nat := w.half - 1

theorem modulus_pos (w : Width) : 0 < w.modulus := Nat.two_pow_pos _

theorem half_pos (w : Width) : 0 < w.half := Nat.two_pow_pos _

theorem modulus_eq (w : Width) : w.modulus = 2 * w.half := by
  have h : w.bits - 1 + 1 = w.bits := Nat.sub_add_cancel w.one_le
  calc w.modulus = Nat.pow 2 (w.bits - 1 + 1) := by rw [h, modulus]
    _ = w.half * 2 := rfl
    _ = 2 * w.half := Nat.mul_comm ..

theorem maxAddend_lt_half (w : Width) : w.maxAddend < w.half :=
  Nat.sub_lt w.half_pos Nat.one_pos

theorem modulus_le (w : Width) : w.modulus ≤ 18446744073709551616 :=
  Nat.pow_le_pow_right (by decide) w.le_max

theorem standard_modulus : standard.modulus = 4294967296 := rfl

end Width
end SerialNumber
