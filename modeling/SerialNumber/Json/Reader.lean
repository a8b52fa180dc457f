import SerialNumber.Json
import SerialNumber.Numeral

/-! Reading JSON. Every reader gives what it read and the characters that follow. -/

namespace SerialNumber.Json

def isBlank (c : Char) : Bool := c == ' ' || c == '\t' || c == '\n' || c == '\r'

def skipBlanks (cs : List Char) : List Char := cs.dropWhile isBlank

def hexValue? (c : Char) : Option Nat :=
  if c.isDigit then some (Numeral.digitValue c)
  else if 'a' ≤ c ∧ c ≤ 'f' then some (c.toNat - 'a'.toNat + 10)
  else if 'A' ≤ c ∧ c ≤ 'F' then some (c.toNat - 'A'.toNat + 10)
  else none

def unescape? : Char → Option Char
  | '"' => some '"'
  | '\\' => some '\\'
  | '/' => some '/'
  | 'b' => some '\x08'
  | 'f' => some '\x0c'
  | 'n' => some '\n'
  | 'r' => some '\r'
  | 't' => some '\t'
  | _ => none

/-- Whether a character outside of the basic plane begins with this code unit. -/
def isHighSurrogate (u : Nat) : Bool := 0xD800 ≤ u && u < 0xDC00

/-- Whether a character outside of the basic plane ends with this code unit. -/
def isLowSurrogate (u : Nat) : Bool := 0xDC00 ≤ u && u < 0xE000

/-- Reads the rest of a text. `high` is the first half of an escaped pair of code units. -/
def readText (high : Option Nat) : List Char → Option (List Char × List Char)
  | '"' :: cs => if high.isNone then some ([], cs) else none
  | '\\' :: 'u' :: c₁ :: c₂ :: c₃ :: c₄ :: cs => do
    let u := 0x1000 * (← hexValue? c₁) + 0x100 * (← hexValue? c₂) + 0x10 * (← hexValue? c₃) +
      (← hexValue? c₄)
    match high with
    | some h =>
      if isLowSurrogate u then
        let (s, rest) ← readText none cs
        some (Char.ofNat (0x10000 + 0x400 * (h - 0xD800) + (u - 0xDC00)) :: s, rest)
      else none
    | none =>
      if isHighSurrogate u then readText (some u) cs
      else if isLowSurrogate u then none
      else
        let (s, rest) ← readText none cs
        some (Char.ofNat u :: s, rest)
  | '\\' :: c :: cs => do
    let c ← if high.isNone then unescape? c else none
    let (s, rest) ← readText none cs
    some (c :: s, rest)
  | c :: cs => do
    if high.isSome || c < ' ' then none
    else
      let (s, rest) ← readText none cs
      some (c :: s, rest)
  | [] => none

/-- Reads one digit or more. -/
def readDigits (cs : List Char) : Option (List Char × List Char) :=
  if (cs.takeWhile Char.isDigit).isEmpty then none
  else some (cs.takeWhile Char.isDigit, cs.dropWhile Char.isDigit)

/-- Reads an exponent, if there is one. -/
def readExponent : List Char → Option (Option Int × List Char)
  | 'e' :: cs | 'E' :: cs =>
    match cs with
    | '-' :: cs => (readDigits cs).map fun (ds, cs) => (some (-(Numeral.value ds : Int)), cs)
    | '+' :: cs | cs => (readDigits cs).map fun (ds, cs) => (some (Numeral.value ds : Int), cs)
  | cs => some (none, cs)

/-- Reads the digits after a point, if there is one. -/
def readFraction : List Char → Option (Option (List Char) × List Char)
  | '.' :: cs => (readDigits cs).map fun (ds, cs) => (some ds, cs)
  | cs => some (none, cs)

/-- A negative zero is no integer. -/
def fitsInteger (negative : Bool) (n : Nat) : Bool :=
  if negative then 0 < n && n ≤ Nat.pow 2 63 else n < Nat.pow 2 64

/-- Takes in digits after those of `n` while the number fits into 64 bits, and leaves the others. -/
def takeDigits (n : Nat) : List Char → Nat × List Char
  | [] => (n, [])
  | c :: cs =>
    if 10 * n + Numeral.digitValue c < Nat.pow 2 64 then
      takeDigits (10 * n + Numeral.digitValue c) cs
    else (n, c :: cs)

/-- The number with these digits before and after the point. A digit that is left out before the
point counts as a power of ten, and one after the point for nothing. -/
def floating? (negative : Bool) (whole fraction : List Char) (exponent : Int) : Option Floating :=
  let (n, wholeLeft) := takeDigits 0 whole
  let (n, fractionLeft) := takeDigits n fraction
  Floating.ofDecimal negative n
    (exponent + wholeLeft.length - (fraction.length - fractionLeft.length : Nat))

/-- Reads a number after its sign. -/
def readNumber (negative : Bool) (cs : List Char) : Option (Json × List Char) := do
  let (whole, cs) ← readDigits cs
  if whole.head? == some '0' && whole.length != 1 then none
  else
    let (fraction, cs) ← readFraction cs
    let (exponent, cs) ← readExponent cs
    let n := Numeral.value whole
    if fraction.isNone && exponent.isNone && fitsInteger negative n then
      some (.integer (if negative then -n else n), cs)
    else
      let x ← floating? negative whole (fraction.getD []) (exponent.getD 0)
      some (.floating x, cs)

mutual

/-- Reads a value. `fuel` bounds the depth of the calls. -/
def readValue : Nat → List Char → Option (Json × List Char)
  | 0, _ => none
  | fuel + 1, cs =>
    match skipBlanks cs with
    | 'n' :: 'u' :: 'l' :: 'l' :: cs => some (.null, cs)
    | 't' :: 'r' :: 'u' :: 'e' :: cs => some (.bool true, cs)
    | 'f' :: 'a' :: 'l' :: 's' :: 'e' :: cs => some (.bool false, cs)
    | '"' :: cs => (readText none cs).map fun (s, cs) => (.text (String.ofList s), cs)
    | '[' :: cs =>
      match skipBlanks cs with
      | ']' :: cs => some (.list [], cs)
      | cs => (readItems fuel cs).map fun (items, cs) => (.list items, cs)
    | '{' :: cs =>
      match skipBlanks cs with
      | '}' :: cs => some (.object [], cs)
      | cs => (readFields fuel cs).map fun (fields, cs) => (.object fields, cs)
    | '-' :: cs => readNumber true cs
    | cs => readNumber false cs

/-- Reads the items of a list up to its end. -/
def readItems : Nat → List Char → Option (List Json × List Char)
  | 0, _ => none
  | fuel + 1, cs => do
    let (item, cs) ← readValue fuel cs
    match skipBlanks cs with
    | ',' :: cs =>
      let (items, cs) ← readItems fuel cs
      some (item :: items, cs)
    | ']' :: cs => some ([item], cs)
    | _ => none

/-- Reads the fields of an object up to its end. -/
def readFields : Nat → List Char → Option (List (String × Json) × List Char)
  | 0, _ => none
  | fuel + 1, cs =>
    match skipBlanks cs with
    | '"' :: cs => do
      let (name, cs) ← readText none cs
      match skipBlanks cs with
      | ':' :: cs =>
        let (value, cs) ← readValue fuel cs
        match skipBlanks cs with
        | ',' :: cs =>
          let (fields, cs) ← readFields fuel cs
          some ((String.ofList name, value) :: fields, cs)
        | '}' :: cs => some ([(String.ofList name, value)], cs)
        | _ => none
      | _ => none
    | _ => none

end

/-- Reads a text that holds one value and nothing else. Each character is worth two calls. -/
def parse? (s : String) : Option Json :=
  match readValue (2 * s.length + 2) s.toList with
  | some (v, cs) => if (skipBlanks cs).isEmpty then some v else none
  | none => none

end SerialNumber.Json
