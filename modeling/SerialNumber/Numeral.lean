/-! Decimal numerals: reading bounded numbers, and writing a fixed number of places. -/

namespace SerialNumber

/-- Why a text is not the numeral of a bounded number. -/
inductive NumeralError where
  | empty
  | invalidDigit
  | overflow
  deriving DecidableEq, Repr

def NumeralError.message : NumeralError → String
  | empty => "cannot parse integer from empty string"
  | invalidDigit => "invalid digit found in string"
  | overflow => "number too large to fit in target type"

namespace Numeral

def digitValue (c : Char) : Nat := c.toNat - '0'.toNat

/-- The number that digits stand for. -/
def value (cs : List Char) : Nat := Nat.ofDigitChars 10 cs 0

/-- Reads on from the number `n` that the digits so far stand for. The first character that is no
digit, or that takes the number to `limit`, decides. -/
def readFrom (limit n : Nat) : List Char → Except NumeralError Nat
  | [] => .ok n
  | c :: cs =>
    if !c.isDigit then .error .invalidDigit
    else if limit ≤ 10 * n + digitValue c then .error .overflow
    else readFrom limit (10 * n + digitValue c) cs

/-- Reads a number below `limit`. It may begin with a plus sign. -/
def read (limit : Nat) : List Char → Except NumeralError Nat
  | [] => .error .empty
  | ['+'] => .error .invalidDigit
  | '+' :: cs => readFrom limit 0 cs
  | cs => readFrom limit 0 cs

/-- The last `places` digits of `n`, with zeros in front where it has fewer. -/
def fixed : Nat → Nat → List Char
  | 0, _ => []
  | places + 1, n => fixed places (n / 10) ++ [Nat.digitChar (n % 10)]

@[simp] theorem fixed_length (places n : Nat) : (fixed places n).length = places := by
  induction places generalizing n with
  | zero => rfl
  | succ places ih => simp [fixed, ih]

variable {limit n k : Nat} {cs : List Char}

theorem readFrom_lt (hn : n < limit) (h : readFrom limit n cs = .ok k) : k < limit := by
  induction cs generalizing n with
  | nil =>
    cases h
    exact hn
  | cons c cs ih =>
    rw [readFrom] at h
    split at h
    · contradiction
    · split at h
      · contradiction
      case isFalse hlt => exact ih (Nat.lt_of_not_le hlt) h

theorem read_lt (hlimit : 0 < limit) (h : read limit cs = .ok k) : k < limit := by
  unfold read at h
  split at h
  · contradiction
  · contradiction
  · exact readFrom_lt hlimit h
  · exact readFrom_lt hlimit h

end Numeral
end SerialNumber
