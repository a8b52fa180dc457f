import Mathlib.Algebra.Order.Ring.Int
import SerialNumber.Json.Reader
import SerialNumber.Json.Writer

/-! Reading back the text of JSON values: whole numbers, and objects that hold whole numbers under
names that need no escapes. -/
namespace SerialNumber.Json
variable {fuel n : Nat} {c : Char} {cs rest name : List Char} {fields : List (String × Nat)}

/-- What may follow a number. -/
def EndsNumber (cs : List Char) : Prop := ∀ c rest, cs = c :: rest → c = ',' ∨ c = '}'

/-- A character that is written as it is. -/
def IsPlain (c : Char) : Prop := c ≠ '"' ∧ c ≠ '\\' ∧ ¬ c < ' '

/-- The fields of an object of whole numbers. -/
def wholes (fields : List (String × Nat)) : List (String × Json) :=
  fields.map fun f => (f.1, .integer f.2)

theorem endsNumber_nil : EndsNumber [] := by
  intro c rest h
  contradiction

theorem endsNumber_comma : EndsNumber (',' :: rest) := by
  intro c rest h
  cases h
  exact Or.inl rfl

theorem endsNumber_brace : EndsNumber ('}' :: rest) := by
  intro c rest h
  cases h
  exact Or.inr rfl

theorem endsNumber_cases (h : EndsNumber cs) :
    cs = [] ∨ (∃ rest, cs = ',' :: rest) ∨ ∃ rest, cs = '}' :: rest := by
  cases cs with
  | nil => exact Or.inl rfl
  | cons c rest =>
    right
    rcases h c rest rfl with rfl | rfl
    · exact Or.inl ⟨rest, rfl⟩
    · exact Or.inr ⟨rest, rfl⟩

theorem isDigit_of_mem_toDigits (hc : c ∈ Nat.toDigits 10 n) : c.isDigit :=
  Nat.isDigit_of_mem_toDigits (by decide) (by decide) hc

/-- Only zero is written with a zero in front. -/
theorem eq_zero_of_head?_toDigits (h : (Nat.toDigits 10 n).head? = some '0') : n = 0 := by
  have hdigit : ∀ m < 10, Nat.digitChar m = '0' → m = 0 := by decide
  induction n using Nat.strongRecOn with
  | ind n ih =>
    rcases Nat.lt_or_ge n 10 with hlt | hge
    · rw [Nat.toDigits_of_lt_base hlt, List.head?_cons, Option.some.injEq] at h
      exact hdigit n hlt h
    · rw [Nat.toDigits_of_base_le (by decide) hge, List.head?_append,
        List.head?_eq_some_head Nat.toDigits_ne_nil, Option.some_or,
        ← List.head?_eq_some_head Nat.toDigits_ne_nil] at h
      have hzero := ih (n / 10) (by omega) h
      omega

theorem readDigits_toDigits (h : EndsNumber rest) :
    readDigits (Nat.toDigits 10 n ++ rest) = some (Nat.toDigits 10 n, rest) := by
  have hall : ∀ c ∈ Nat.toDigits 10 n, c.isDigit := fun c hc => isDigit_of_mem_toDigits hc
  have hrest : rest.takeWhile Char.isDigit = [] ∧ rest.dropWhile Char.isDigit = rest := by
    obtain rfl | ⟨rest, rfl⟩ | ⟨rest, rfl⟩ := endsNumber_cases h <;> exact ⟨rfl, rfl⟩
  rw [readDigits, List.takeWhile_append_of_pos hall, List.dropWhile_append_of_pos hall,
    hrest.1, hrest.2, List.append_nil, if_neg]
  simp

theorem readFraction_of_endsNumber (h : EndsNumber rest) :
    readFraction rest = some (none, rest) := by
  obtain rfl | ⟨rest, rfl⟩ | ⟨rest, rfl⟩ := endsNumber_cases h <;> rfl

theorem readExponent_of_endsNumber (h : EndsNumber rest) :
    readExponent rest = some (none, rest) := by
  obtain rfl | ⟨rest, rfl⟩ | ⟨rest, rfl⟩ := endsNumber_cases h <;> rfl

theorem readNumber_toDigits (hn : n < 2 ^ 64) (h : EndsNumber rest) :
    readNumber false (Nat.toDigits 10 n ++ rest) = some (.integer n, rest) := by
  have hzero : ((Nat.toDigits 10 n).head? == some '0' &&
      (Nat.toDigits 10 n).length != 1) = false := by
    rw [Bool.and_eq_false_imp, beq_iff_eq]
    intro hhead
    rw [eq_zero_of_head?_toDigits hhead]
    rfl
  have hvalue : Numeral.value (Nat.toDigits 10 n) = n := Nat.ofDigitChars_ten_toDigits
  have hfits : fitsInteger false n = true := decide_eq_true hn
  simp only [readNumber, readDigits_toDigits h, Option.bind_eq_bind, Option.bind_some, hzero,
    readFraction_of_endsNumber h, readExponent_of_endsNumber h, hvalue, hfits]
  rfl

/-- A digit begins no other value. -/
theorem readValue_of_isDigit (hc : c.isDigit) :
    readValue (fuel + 1) (c :: cs) = readNumber false (c :: cs) := by
  have hblank : isBlank c = false := by
    rw [← Bool.not_eq_true, isBlank]
    intro h
    simp only [Bool.or_eq_true, beq_iff_eq] at h
    rcases h with ((rfl | rfl) | rfl) | rfl <;> contradiction
  have hskip : skipBlanks (c :: cs) = c :: cs := List.dropWhile_cons_of_neg (by simp [hblank])
  rw [readValue, hskip]
  split <;> simp_all

theorem readValue_toDigits (hfuel : 0 < fuel) (hn : n < 2 ^ 64) (h : EndsNumber rest) :
    readValue fuel (Nat.toDigits 10 n ++ rest) = some (.integer n, rest) := by
  obtain ⟨fuel, rfl⟩ : ∃ k, fuel = k + 1 := ⟨fuel - 1, by omega⟩
  have hread := readNumber_toDigits hn h
  cases hcs : Nat.toDigits 10 n with
  | nil => exact (Nat.toDigits_ne_nil hcs).elim
  | cons c cs =>
    have hc : c.isDigit := isDigit_of_mem_toDigits (by rw [hcs]; exact List.mem_cons_self)
    rw [hcs, List.cons_append] at hread
    rw [List.cons_append, readValue_of_isDigit hc, hread]

theorem escape_of_isPlain (hc : IsPlain c) : escape c = [c] := by
  obtain ⟨hquote, hback, hlow⟩ := hc
  unfold escape
  split <;> simp_all

theorem readText_plain (h : ∀ c ∈ name, IsPlain c) :
    readText none (name ++ '"' :: cs) = some (name, cs) := by
  induction name with
  | nil => rfl
  | cons c name ih =>
    obtain ⟨hquote, hback, hlow⟩ := h c List.mem_cons_self
    have htail := ih fun c hc => h c (List.mem_cons_of_mem _ hc)
    simp [readText, hback, hlow, htail]

theorem flatMap_escape (h : ∀ c ∈ name, IsPlain c) : name.flatMap escape = name := by
  induction name with
  | nil => rfl
  | cons c name ih =>
    rw [List.flatMap_cons, escape_of_isPlain (h c List.mem_cons_self),
      ih fun c hc => h c (List.mem_cons_of_mem _ hc), List.singleton_append]

theorem toList_writeText {s : String} (h : ∀ c ∈ s.toList, IsPlain c) :
    (writeText s).toList = '"' :: (s.toList ++ ['"']) := by
  simp [writeText, flatMap_escape h]

theorem toList_compact_integer : (compact (.integer n)).toList = Nat.toDigits 10 n := by
  rw [compact]
  exact Nat.toList_repr

/-- One field: its name, a colon and its number. -/
def fieldText (name : String) (n : Nat) : List Char :=
  '"' :: (name.toList ++ '"' :: ':' :: Nat.toDigits 10 n)

def fieldsText : List (String × Nat) → List Char
  | [] => []
  | [(name, n)] => fieldText name n
  | (name, n) :: f :: fields => fieldText name n ++ ',' :: fieldsText (f :: fields)

theorem toList_compact_field {name : String} (hname : ∀ c ∈ name.toList, IsPlain c) :
    (writeText name ++ ":" ++ compact (.integer n)).toList = fieldText name n := by
  simp [fieldText, toList_writeText hname, toList_compact_integer]

theorem toList_compactFields (hplain : ∀ f ∈ fields, ∀ c ∈ f.1.toList, IsPlain c) :
    (",".intercalate (compactFields (wholes fields))).toList = fieldsText fields := by
  induction fields with
  | nil => rfl
  | cons f fields ih =>
    obtain ⟨name, n⟩ := f
    have hfield := toList_compact_field (n := n) (hplain _ List.mem_cons_self)
    cases fields with
    | nil => exact hfield
    | cons g fields =>
      have hmore := ih fun f hf => hplain f (List.mem_cons_of_mem _ hf)
      rw [fieldsText, ← hmore, ← hfield]
      simp only [wholes, List.map_cons, compactFields, String.intercalate_cons_cons,
        String.toList_append, List.append_assoc]
      rfl

theorem toList_compact_wholes (hplain : ∀ f ∈ fields, ∀ c ∈ f.1.toList, IsPlain c) :
    (compact (.object (wholes fields))).toList = '{' :: (fieldsText fields ++ ['}']) := by
  rw [← toList_compactFields hplain]
  simp [compact]

theorem readFields_last {name : String} (hfuel : 0 < fuel) (hname : ∀ c ∈ name.toList, IsPlain c)
    (hn : n < 2 ^ 64) :
    readFields (fuel + 1) (fieldText name n ++ '}' :: rest) =
      some ([(name, .integer n)], rest) := by
  have hvalue : readValue fuel (Nat.toDigits 10 n ++ '}' :: rest) = _ :=
    readValue_toDigits hfuel hn endsNumber_brace
  simp [fieldText, readFields, skipBlanks, isBlank, readText_plain hname, hvalue]

theorem readFields_more {name : String} {more : List (String × Json)} (hfuel : 0 < fuel)
    (hname : ∀ c ∈ name.toList, IsPlain c) (hn : n < 2 ^ 64)
    (hmore : readFields fuel cs = some (more, rest)) :
    readFields (fuel + 1) (fieldText name n ++ ',' :: cs) =
      some ((name, .integer n) :: more, rest) := by
  have hvalue : readValue fuel (Nat.toDigits 10 n ++ ',' :: cs) = _ :=
    readValue_toDigits hfuel hn endsNumber_comma
  simp [fieldText, readFields, skipBlanks, isBlank, readText_plain hname, hvalue, hmore]

/-- The fields are read up to the brace that ends the object. -/
theorem readFields_fieldsText (hne : fields ≠ [])
    (hplain : ∀ f ∈ fields, ∀ c ∈ f.1.toList, IsPlain c) (hlt : ∀ f ∈ fields, f.2 < 2 ^ 64)
    (hfuel : fields.length < fuel) :
    readFields fuel (fieldsText fields ++ '}' :: rest) = some (wholes fields, rest) := by
  induction fields generalizing fuel with
  | nil => contradiction
  | cons f fields ih =>
    obtain ⟨name, n⟩ := f
    have hname := hplain _ List.mem_cons_self
    have hn := hlt _ List.mem_cons_self
    rw [List.length_cons] at hfuel
    obtain ⟨fuel, rfl⟩ : ∃ k, fuel = k + 1 := ⟨fuel - 1, by omega⟩
    cases fields with
    | nil => exact readFields_last (by omega) hname hn
    | cons g fields =>
      have hmore : readFields fuel (fieldsText (g :: fields) ++ '}' :: rest) =
          some (wholes (g :: fields), rest) :=
        ih nofun (fun f hf => hplain f (List.mem_cons_of_mem _ hf))
          (fun f hf => hlt f (List.mem_cons_of_mem _ hf)) (by omega)
      rw [fieldsText, List.append_assoc]
      exact readFields_more (by omega) hname hn hmore

theorem exists_fieldsText_eq (hne : fields ≠ []) : ∃ cs, fieldsText fields = '"' :: cs := by
  cases fields with
  | nil => contradiction
  | cons f fields => cases fields <;> exact ⟨_, rfl⟩

theorem length_le_length_fieldsText (fields : List (String × Nat)) :
    fields.length ≤ (fieldsText fields).length := by
  induction fields with
  | nil => exact Nat.zero_le _
  | cons f fields ih =>
    cases fields with
    | nil => exact Nat.succ_pos _
    | cons g fields =>
      simp only [fieldsText, List.length_append, List.length_cons] at ih ⊢
      omega

/-- An object of whole numbers is read back from its compact text. -/
theorem parse?_compact_wholes (hne : fields ≠ [])
    (hplain : ∀ f ∈ fields, ∀ c ∈ f.1.toList, IsPlain c) (hlt : ∀ f ∈ fields, f.2 < 2 ^ 64) :
    parse? (compact (.object (wholes fields))) = some (.object (wholes fields)) := by
  have htext := toList_compact_wholes hplain
  have hfuel : fields.length < 2 * (compact (.object (wholes fields))).length + 1 := by
    have hle := length_le_length_fieldsText fields
    rw [← String.length_toList, htext, List.length_cons, List.length_append]
    omega
  have hread : readFields _ (fieldsText fields ++ ['}']) = some (wholes fields, []) :=
    readFields_fieldsText hne hplain hlt hfuel
  obtain ⟨cs, hcs⟩ := exists_fieldsText_eq hne
  rw [parse?, htext]
  rw [hcs, List.cons_append] at hread ⊢
  have hvalue : readValue (2 * (compact (.object (wholes fields))).length + 2)
      ('{' :: '"' :: (cs ++ ['}'])) = some (.object (wholes fields), []) := by
    change (readFields _ ('"' :: (cs ++ ['}']))).map _ = _
    rw [hread]
    rfl
  rw [hvalue]
  rfl

/-- A whole number is read back from its decimal text. -/
theorem parse?_compact_integer (hn : n < 2 ^ 64) :
    parse? (compact (.integer n)) = some (.integer n) := by
  have hread := readValue_toDigits (Nat.succ_pos (2 * (compact (.integer n)).length + 1)) hn
    endsNumber_nil
  rw [List.append_nil] at hread
  rw [parse?, toList_compact_integer, hread]
  rfl

end SerialNumber.Json
