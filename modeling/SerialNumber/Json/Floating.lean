/-! Finite binary floating-point numbers of double precision, read from and written in decimal. -/

namespace SerialNumber

/-- A sign and a magnitude in units of `2 ^ -1074`, the least positive number. Of a magnitude, at
most 53 bits count from the first that is set. -/
structure Floating where
  negative : Bool
  magnitude : Nat
  deriving DecidableEq, Repr

namespace Floating

/-- The units in the least positive number's reciprocal. -/
def unitsInOne : Nat := Nat.pow 2 1074

/-- The magnitude from which on numbers are infinite. -/
def infinite : Nat := Nat.pow 2 2098

/-- The distance from a magnitude of so many units to the next one. -/
def gap (n : Nat) : Nat := Nat.pow 2 (n.log2 - 52)

/-- The quotient rounded to the nearest number, and to the even one of two. -/
def roundQuotient (num den : Nat) : Nat :=
  let q := num / den
  match compare (2 * (num % den)) den with
  | .lt => q
  | .gt => q + 1
  | .eq => q + q % 2

/-- The magnitude nearest to a quotient of units, however large. -/
def nearest (num den : Nat) : Nat :=
  roundQuotient num (den * gap (num / den)) * gap (num / den)

def ofNat (n : Nat) : Nat := nearest (n * unitsInOne) 1

def mul (m n : Nat) : Nat := nearest (m * n) unitsInOne

def div (m n : Nat) : Nat := nearest (m * unitsInOne) n

/-- The largest power of ten that is finite. -/
def maxPower : Nat := 308

/-- Divides by `10 ^ k`, in several steps where that is not finite. -/
def shiftDown (m k : Nat) : Nat :=
  if k ≤ maxPower then div m (ofNat (Nat.pow 10 k))
  else if m = 0 then 0
  else shiftDown (div m (ofNat (Nat.pow 10 maxPower))) (k - maxPower)
termination_by k
decreasing_by simp only [maxPower] at *; omega

/-- The number `digits * 10 ^ scale`, if it is finite. The digits are rounded first, and then every
multiplication and division, so that the number need not be the nearest one. -/
def ofDecimal (negative : Bool) (digits : Nat) (scale : Int) : Option Floating :=
  if scale < 0 then some ⟨negative, shiftDown (ofNat digits) (-scale).toNat⟩
  else if digits = 0 then some ⟨negative, 0⟩
  else if maxPower < scale then none
  else
    let magnitude := mul (ofNat digits) (ofNat (Nat.pow 10 scale.toNat))
    if magnitude < infinite then some ⟨negative, magnitude⟩ else none

/-- The multiple of `10 ^ p` that is nearest to a magnitude, if a reader would take it back to that
magnitude. -/
def onGrid? (n : Nat) (p : Int) : Option Nat :=
  let scale := Nat.pow 10 (-p).toNat
  let step := 4 * unitsInOne * Nat.pow 10 p.toNat
  let below := if n = Nat.pow 2 n.log2 ∧ 53 ≤ n.log2 then gap n else 2 * gap n
  let low := (4 * n - below) * scale
  let high := (4 * n + 2 * gap n) * scale
  let readsBack (x : Nat) : Bool :=
    if n / gap n % 2 = 0 then low ≤ x * step && x * step ≤ high
    else low < x * step && x * step < high
  let x := roundQuotient (4 * n * scale) step
  if readsBack x then some x
  else if readsBack (x + 1) then some (x + 1)
  else if readsBack (x - 1) then some (x - 1)
  else none

/-- The fewest digits that read back as a positive magnitude, and the power of ten of the last. -/
def shortest (n : Nat) : Nat × Int :=
  let top : Int := (Nat.toDigits 10 (n * Nat.pow 10 400 / unitsInOne)).length - 401
  ((List.range 17).findSome? fun i : Nat => (onGrid? n (top - i)).map (·, top - i)).getD (n, -1074)

/-- Digits without the zeros at the end, and the power of ten of the last one left. -/
def trim (digits : List Char) (p : Int) : List Char × Int :=
  let zeros := (digits.reverse.takeWhile (· == '0')).length
  (digits.take (digits.length - zeros), p + zeros)

/-- Positional from `1e-5` up to below `1e16`, with a fraction of at least one digit; otherwise
with one digit before the point and a signed exponent. -/
def layOut (digits : List Char) (p : Int) : List Char :=
  let point := digits.length + p
  if 0 ≤ p ∧ point ≤ 16 then digits ++ List.replicate p.toNat '0' ++ ['.', '0']
  else if 0 < point ∧ point ≤ 16 then digits.take point.toNat ++ '.' :: digits.drop point.toNat
  else if -5 < point ∧ point ≤ 0 then '0' :: '.' :: List.replicate (-point).toNat '0' ++ digits
  else
    digits.take 1 ++ (if digits.length = 1 then [] else '.' :: digits.drop 1) ++
      'e' :: (if 0 < point then '+' else '-') :: Nat.toDigits 10 (point - 1).natAbs

def text (x : Floating) : String :=
  let sign := if x.negative then ['-'] else []
  if x.magnitude = 0 then String.ofList (sign ++ ['0', '.', '0'])
  else
    let (n, p) := shortest x.magnitude
    let (digits, p) := trim (Nat.toDigits 10 n) p
    String.ofList (sign ++ layOut digits p)

end Floating
end SerialNumber
