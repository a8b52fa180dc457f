import SerialNumber.Serial.Addition

/-! Reports of refused additions. -/

namespace SerialNumber

/-- How much a report matters. -/
inductive Level where
  | error
  | warn
  | info
  | debug
  | trace
  deriving DecidableEq, Repr

def Level.text : Level → String
  | error => "ERROR"
  | warn => "WARN"
  | info => "INFO"
  | debug => "DEBUG"
  | trace => "TRACE"

/-- What is reported of a refused addition: both operands as they were, and why. -/
structure Rejection where
  level : Level
  width : Nat
  value : Nat
  chain : Option Nat
  addend : Nat
  addendWidth : Nat
  error : AddError
  deriving DecidableEq, Repr

namespace Rejection

def message (r : Rejection) : String :=
  "rejected serial number addition: " ++ r.error.message

def ofOperands (s n : Serial) (e : AddError) : Rejection where
  level := .debug
  width := s.width.bits
  value := s.value
  chain := s.chain
  addend := n.value
  addendWidth := n.width.bits
  error := e

end Rejection

/-- Reports in the order in which they were made. -/
abbrev Reporting := StateM (List Rejection)

namespace Serial
variable {s n : Serial} {e : AddError} {log : List Rejection}

/-- Reports that `n` cannot be added to `s`, and hands the reason on. -/
def reject (s n : Serial) (e : AddError) : Reporting AddError := do
  modify (· ++ [.ofOperands s n e])
  return e

/-- Adds, and reports a refusal. -/
def addReporting (s n : Serial) :
    Reporting (Except AddError { t : Serial // t.width = s.width }) := do
  if s.width ≠ n.width then
    return .error (← s.reject n .widthMismatch)
  else if s.width.maxAddend < n.value then
    return .error (← s.reject n .addendTooLarge)
  else if s.chain.isSome ∧ s.width.modulus < s.position + n.value then
    return .error (← s.reject n .chainOverflow)
  else
    return .ok ⟨s.advance n.value, rfl⟩

theorem addReporting_of_refusal?_eq_none (h : s.refusal? n = none) :
    (s.addReporting n).run log = (.ok ⟨s.advance n.value, rfl⟩, log) := by
  obtain ⟨hwidth, hmax, hroom⟩ := refusal?_eq_none_iff.1 h
  have hchain : ¬ (s.chain.isSome ∧ s.width.modulus < s.position + n.value) := by
    rintro ⟨hsome, hlt⟩
    rcases hroom with hnone | hle
    · rw [hnone] at hsome
      contradiction
    · omega
  rw [addReporting, if_neg (not_not_intro hwidth), if_neg (Nat.not_lt_of_le hmax), if_neg hchain]
  rfl

theorem addReporting_of_refusal?_eq_some (h : s.refusal? n = some e) :
    (s.addReporting n).run log = (.error e, log ++ [.ofOperands s n e]) := by
  cases e with
  | widthMismatch =>
    rw [addReporting, if_pos (refusal?_eq_widthMismatch_iff.1 h)]
    rfl
  | addendTooLarge =>
    obtain ⟨hwidth, hlarge⟩ := refusal?_eq_addendTooLarge_iff.1 h
    rw [addReporting, if_neg (not_not_intro hwidth), if_pos hlarge]
    rfl
  | chainOverflow =>
    obtain ⟨hwidth, hmax, hchain, hpast⟩ := refusal?_eq_chainOverflow_iff.1 h
    have hsome : s.chain.isSome := Option.isSome_iff_ne_none.2 hchain
    rw [addReporting, if_neg (not_not_intro hwidth), if_neg (Nat.not_lt_of_le hmax),
      if_pos ⟨hsome, hpast⟩]
    rfl

end Serial
end SerialNumber
