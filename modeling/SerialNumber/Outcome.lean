/-! Outcomes of steps that may fail, one after the other. -/

namespace SerialNumber.Outcome
variable {ε α β : Type} {x : Except ε α} {f : α → Except ε β} {g : α → β} {b : β} {e : ε}

theorem bind_eq_ok_iff : x >>= f = .ok b ↔ ∃ a, x = .ok a ∧ f a = .ok b := by
  cases x <;> simp [Bind.bind, Except.bind]

theorem bind_eq_error_iff :
    x >>= f = .error e ↔ x = .error e ∨ ∃ a, x = .ok a ∧ f a = .error e := by
  cases x <;> simp [Bind.bind, Except.bind]

theorem map_eq_ok_iff : x.map g = .ok b ↔ ∃ a, x = .ok a ∧ g a = b := by
  cases x <;> simp [Except.map]

theorem map_eq_error_iff : x.map g = .error e ↔ x = .error e := by
  cases x <;> simp [Except.map]

theorem mapError_eq_ok_iff {ε' : Type} {h : ε → ε'} {a : α} :
    x.mapError h = .ok a ↔ x = .ok a := by
  cases x with
  | error e => constructor <;> (intro he; cases he)
  | ok a' => constructor <;> (intro he; cases he; rfl)

theorem mapError_eq_error_iff {ε' : Type} {h : ε → ε'} {e' : ε'} :
    x.mapError h = .error e' ↔ ∃ e, x = .error e ∧ h e = e' := by
  cases x with
  | error e =>
    constructor
    · intro he
      cases he
      exact ⟨e, rfl, rfl⟩
    · rintro ⟨_, he, rfl⟩
      cases he
      rfl
  | ok a =>
    constructor
    · intro he
      cases he
    · rintro ⟨_, he, _⟩
      cases he

theorem throw_ne_ok {a : α} : (throw e : Except ε α) ≠ .ok a := nofun

end SerialNumber.Outcome
