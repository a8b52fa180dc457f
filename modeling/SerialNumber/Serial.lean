import SerialNumber.Width

/-! Serial numbers: values of a cyclic number space that remember how they were reached. -/

namespace SerialNumber

/-- A value of the number space. `chain` is where the additions that led here have arrived without
wrapping around, and `none` if there were none. -/
@[ext] structure Serial where
  width : Width
  value : Nat
  chain : Option Nat
  value_lt : value < width.modulus
  deriving DecidableEq, Repr

/-- A call that its caller was not allowed to make. -/
inductive Breach where
  | widthOutOfRange
  deriving DecidableEq, Repr

def Breach.message : Breach → String
  | widthOutOfRange => "serial bits must be between 1 and 64"

namespace Serial
variable {a b c : Serial} {w : Width} {x : Int} {n : Nat}

/-- Wraps an integer of any sign into the space. -/
def ofInt (w : Width) (x : Int) : Serial where
  width := w
  value := (x % w.modulus).toNat
  chain := none
  value_lt := by
    have := Int.emod_nonneg x (b := w.modulus) (by have := w.modulus_pos; omega)
    have := Int.emod_lt_of_pos x (b := w.modulus) (by have := w.modulus_pos; omega)
    omega

instance : Inhabited Serial := ⟨ofInt .standard 0⟩

def ofUInt32 (n : UInt32) : Serial := ofInt .standard n.toNat

/-- Wraps an integer into the space of that many bits, if there is one. -/
def ofBits (x : Int) (bits : Nat) : Except InvalidWidth Serial :=
  (Width.ofNat bits).map (ofInt · x)

/-- Wraps an integer into the space of that many bits, which the caller promises to exist. -/
def ofBits! (x : Int) (bits : Nat) : Except Breach Serial :=
  match Width.ofNat bits with
  | .ok w => .ok (ofInt w x)
  | .error _ => .error .widthOutOfRange

/-- Forgets the additions that led here. -/
def rebased (s : Serial) : Serial := { s with chain := none }

/-- Where the next addition starts from, without wrapping around. -/
def position (s : Serial) : Nat := s.chain.getD s.value

/-- Two serials are the same number if width and value agree, whatever led to them. -/
def Same (a b : Serial) : Prop := a.width = b.width ∧ a.value = b.value

instance : Setoid Serial where
  r := Same
  iseqv.refl _ := ⟨rfl, rfl⟩
  iseqv.symm h := ⟨h.1.symm, h.2.symm⟩
  iseqv.trans h k := ⟨h.1.trans k.1, h.2.trans k.2⟩

instance (a b : Serial) : Decidable (a ≈ b) :=
  inferInstanceAs (Decidable (a.width = b.width ∧ a.value = b.value))

theorem equiv_iff : a ≈ b ↔ a.width = b.width ∧ a.value = b.value := .rfl

@[simp] theorem rebased_width : a.rebased.width = a.width := rfl

@[simp] theorem rebased_value : a.rebased.value = a.value := rfl

@[simp] theorem rebased_chain : a.rebased.chain = none := rfl

theorem rebased_equiv : a.rebased ≈ a := ⟨rfl, rfl⟩

@[simp] theorem ofInt_width : (ofInt w x).width = w := rfl

@[simp] theorem ofInt_chain : (ofInt w x).chain = none := rfl

theorem ofInt_value : ((ofInt w x).value : Int) = x % w.modulus :=
  Int.toNat_of_nonneg (Int.emod_nonneg x (by have := w.modulus_pos; omega))

theorem position_of_chain_none (h : a.chain = none) : a.position = a.value := by
  rw [position, h, Option.getD_none]

theorem position_of_chain_some (h : a.chain = some n) : a.position = n := by
  rw [position, h, Option.getD_some]

theorem ofBits_eq_ok_iff {s : Serial} {bits : Nat} :
    ofBits x bits = .ok s ↔ ∃ w : Width, w.bits = bits ∧ s = ofInt w x := by
  by_cases h : 1 ≤ bits ∧ bits ≤ 64
  · simp only [ofBits, Width.ofNat, dif_pos h, Except.map, Except.ok.injEq]
    constructor
    · rintro rfl
      exact ⟨⟨bits, h.1, h.2⟩, rfl, rfl⟩
    · rintro ⟨w, rfl, rfl⟩
      rfl
  · simp only [ofBits, Width.ofNat, dif_neg h, Except.map, reduceCtorEq, false_iff]
    rintro ⟨w, rfl, _⟩
    exact h ⟨w.one_le, w.le_max⟩

theorem ofBits!_eq_ok_iff {s : Serial} {bits : Nat} :
    ofBits! x bits = .ok s ↔ ofBits x bits = .ok s := by
  cases h : Width.ofNat bits <;> simp [ofBits!, ofBits, h, Except.map]

theorem ofBits_eq_error_iff {e : InvalidWidth} {bits : Nat} :
    ofBits x bits = .error e ↔ (bits = 0 ∨ 64 < bits) ∧ e = ⟨bits⟩ := by
  by_cases h : 1 ≤ bits ∧ bits ≤ 64
  · simp only [ofBits, Width.ofNat, dif_pos h, Except.map, reduceCtorEq, false_iff]
    omega
  · have hrange : bits = 0 ∨ 64 < bits := by omega
    simp [ofBits, Width.ofNat, dif_neg h, Except.map, hrange, eq_comm]

theorem ofBits!_eq_error_iff {bits : Nat} :
    ofBits! x bits = .error .widthOutOfRange ↔ bits = 0 ∨ 64 < bits := by
  by_cases h : 1 ≤ bits ∧ bits ≤ 64
  · simp only [ofBits!, Width.ofNat, dif_pos h, reduceCtorEq, false_iff]
    omega
  · simp only [ofBits!, Width.ofNat, dif_neg h, true_iff]
    omega

theorem ofInt_value_natCast : (ofInt w n).value = n % w.modulus := by
  have h : ((ofInt w n).value : Int) = (n % w.modulus : Nat) := ofInt_value
  exact Int.ofNat.inj h

theorem ofInt_value_of_lt (h : n < w.modulus) : (ofInt w n).value = n := by
  rw [ofInt_value_natCast, Nat.mod_eq_of_lt h]

theorem ofInt_value_self (h : a.chain = none) : ofInt a.width a.value = a :=
  Serial.ext rfl (ofInt_value_of_lt a.value_lt) h.symm

end Serial
end SerialNumber
