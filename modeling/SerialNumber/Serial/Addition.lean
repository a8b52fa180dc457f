import SerialNumber.Serial

/-! Addition of serial numbers, and the bound on chains of additions. -/

namespace SerialNumber

/-- Why an addition is refused. -/
inductive AddError where
  | addendTooLarge
  | chainOverflow
  | widthMismatch
  deriving DecidableEq, Repr

namespace AddError

def message : AddError → String
  | addendTooLarge => "serial number addend too large"
  | chainOverflow => "serial number chain carried past the end of the space"
  | widthMismatch => "serial numbers of different width"

/-- Whether the sum lies outside of what the width allows. -/
def isOutOfRange : AddError → Bool
  | addendTooLarge | chainOverflow => true
  | widthMismatch => false

end AddError

namespace Serial
variable {s t n : Serial} {e : AddError} {k : Nat} {ns : List Serial}

/-- Why `n` cannot be added to `s`, if it cannot. The first addition to a fresh value may pass the
end of the space by any amount; later ones may only reach it. -/
def refusal? (s n : Serial) : Option AddError :=
  if s.width ≠ n.width then some .widthMismatch
  else if s.width.maxAddend < n.value then some .addendTooLarge
  else if s.chain.isSome ∧ s.width.modulus < s.position + n.value then some .chainOverflow
  else none

/-- Moves `k` values forward and remembers it. -/
def advance (s : Serial) (k : Nat) : Serial where
  width := s.width
  value := (s.value + k) % s.width.modulus
  chain := some (s.position + k)
  value_lt := Nat.mod_lt _ s.width.modulus_pos

def add (s n : Serial) : Except AddError Serial :=
  match s.refusal? n with
  | some e => .error e
  | none => .ok (s.advance n.value)

/-- Adds one serial after the other, up to the first that is refused. -/
def addAll (s : Serial) (ns : List Serial) : Except AddError Serial := ns.foldlM add s

@[simp] theorem advance_width : (s.advance k).width = s.width := rfl

@[simp] theorem advance_value : (s.advance k).value = (s.value + k) % s.width.modulus := rfl

@[simp] theorem advance_chain : (s.advance k).chain = some (s.position + k) := rfl

@[simp] theorem advance_position : (s.advance k).position = s.position + k := rfl

theorem advance_value_of_lt (h : s.value + k < s.width.modulus) :
    (s.advance k).value = s.value + k := Nat.mod_eq_of_lt h

/-- A move of at most one turn carries at most once. -/
theorem advance_value_of_le (h : s.width.modulus ≤ s.value + k) (hk : k ≤ s.width.modulus) :
    (s.advance k).value = s.value + k - s.width.modulus := by
  have := s.value_lt
  rw [advance_value, Nat.mod_eq_sub_mod h, Nat.mod_eq_of_lt (by omega)]

theorem refusal?_eq_none_iff : s.refusal? n = none ↔ s.width = n.width ∧
    n.value ≤ s.width.maxAddend ∧ (s.chain = none ∨ s.position + n.value ≤ s.width.modulus) := by
  rw [refusal?]
  split
  case isTrue hw => simp [hw]
  case isFalse hw =>
    split
    case isTrue hn => simp [Nat.not_le_of_lt hn]
    case isFalse hn =>
      cases hc : s.chain <;> simp_all

theorem refusal?_eq_widthMismatch_iff :
    s.refusal? n = some .widthMismatch ↔ s.width ≠ n.width := by
  rw [refusal?]
  split
  case isTrue hw => simp [hw]
  case isFalse hw => split <;> simp_all

theorem refusal?_eq_addendTooLarge_iff : s.refusal? n = some .addendTooLarge ↔
    s.width = n.width ∧ s.width.maxAddend < n.value := by
  rw [refusal?]
  split
  case isTrue hw => simp [hw]
  case isFalse hw => split <;> simp_all

theorem refusal?_eq_chainOverflow_iff : s.refusal? n = some .chainOverflow ↔ s.width = n.width ∧
    n.value ≤ s.width.maxAddend ∧ s.chain ≠ none ∧ s.width.modulus < s.position + n.value := by
  rw [refusal?]
  split
  case isTrue hw => simp [hw]
  case isFalse hw =>
    split
    case isTrue hn => simp [Nat.not_le_of_lt hn]
    case isFalse hn => cases hc : s.chain <;> simp_all

theorem add_eq_ok_iff : s.add n = .ok t ↔ s.refusal? n = none ∧ t = s.advance n.value := by
  cases h : s.refusal? n <;> simp [add, h, eq_comm]

/-- The first addition of a chain has no bound but that on the amount. -/
theorem add_of_chain_none (hs : s.chain = none) (hw : s.width = n.width)
    (hn : n.value ≤ s.width.maxAddend) : s.add n = .ok (s.advance n.value) :=
  add_eq_ok_iff.2 ⟨refusal?_eq_none_iff.2 ⟨hw, hn, .inl hs⟩, rfl⟩

theorem add_of_room (hw : s.width = n.width) (hn : n.value ≤ s.width.maxAddend)
    (h : s.position + n.value ≤ s.width.modulus) : s.add n = .ok (s.advance n.value) :=
  add_eq_ok_iff.2 ⟨refusal?_eq_none_iff.2 ⟨hw, hn, .inr h⟩, rfl⟩

theorem add_eq_error_iff : s.add n = .error e ↔ s.refusal? n = some e := by
  cases h : s.refusal? n <;> simp [add, h]

theorem add_of_no_room (hs : s.chain ≠ none) (hw : s.width = n.width)
    (hn : n.value ≤ s.width.maxAddend) (h : s.width.modulus < s.position + n.value) :
    s.add n = .error .chainOverflow :=
  add_eq_error_iff.2 (refusal?_eq_chainOverflow_iff.2 ⟨hw, hn, hs, h⟩)

@[simp] theorem addAll_nil : s.addAll [] = .ok s := rfl

theorem addAll_cons : s.addAll (n :: ns) = (s.add n).bind (·.addAll ns) := rfl

end Serial
end SerialNumber
