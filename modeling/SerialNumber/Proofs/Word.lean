import SerialNumber.Proofs.Chain
import SerialNumber.Proofs.Conversion
import SerialNumber.Proofs.JsonForm
import SerialNumber.Word

/-! Words are wide enough. Each step on words gives the number that it gives over the integers, for
every width up to 64 bits and every chain that additions can lead to. -/
namespace SerialNumber

/-- However long the run of additions has been, the next sum has room in 128 bits. -/
theorem Serial.position_add_lt {s : Serial} (hs : s.Reachable) (n : Serial) :
    s.position + n.value < 2 ^ 128 := by
  have hv := s.value_lt_two_pow
  have hn := n.value_lt_two_pow
  have hm := s.width.modulus_le
  have hposition := position_of_attainable (reachable_iff.1 hs)
  omega

theorem isArgument_of_lt_two_pow {k : Nat} (h : k < 2 ^ 64) : IsArgument k := by
  constructor <;> omega

namespace Word
variable {bits k : Nat} {x : Int} {s n a b : Serial}

theorem fit?_eq_some (hx : x = k) (h : k < 2 ^ bits) : fit? bits x = some k := by
  subst hx
  have hlt : (k : Int) < 2 ^ bits := by exact_mod_cast h
  rw [fit?, if_pos ⟨Int.natCast_nonneg k, hlt⟩, Int.toNat_natCast]

theorem fitSigned?_eq_some (h : -2 ^ (bits - 1) ≤ x) (h' : x < 2 ^ (bits - 1)) :
    fitSigned? bits x = some x := if_pos ⟨h, h'⟩

theorem bit?_eq_some (h : k < bits) : bit? bits k = some (2 ^ k) := by
  rw [bit?, if_pos h]
  exact fit?_eq_some (by norm_cast) (Nat.pow_lt_pow_right (by decide) h)

theorem signedBit?_eq_some (h : k < bits - 1) : signedBit? bits k = some (2 ^ k) := by
  have hlt : (2 : Int) ^ k < 2 ^ (bits - 1) := by
    exact_mod_cast Nat.pow_lt_pow_right (a := 2) (by decide) h
  have hpos : (0 : Int) < 2 ^ k := Int.pow_pos (by decide)
  rw [signedBit?, if_pos (by omega)]
  exact fitSigned?_eq_some (by omega) hlt

theorem mod?_eq_some {m : Int} (h : 0 < m) : mod? x m = some (x % m) := by
  rw [mod?, if_neg (by omega)]

theorem onOk?_eq_some {ε α β : Type} {y : Except ε α} {f : α → Option β} {g : α → β}
    (h : ∀ a, y = .ok a → f a = some (g a)) : onOk? y f = some (y.map g) := by
  cases y with
  | error e => rfl
  | ok a => rw [onOk?, h a rfl]; rfl

theorem modulus?_bits (w : Width) : modulus? w.bits = some w.modulus :=
  bit?_eq_some (Nat.lt_of_le_of_lt w.le_max (by decide))

theorem maxValue?_bits (w : Width) : maxValue? w.bits = some w.maxValue := by
  have hpos := w.modulus_pos
  have hle := w.modulus_le
  have hmax : w.maxValue = w.modulus - 1 := rfl
  have hsub : fit? 128 (w.modulus - 1) = some w.maxValue := fit?_eq_some (by omega) (by omega)
  have hcast : fit? 64 w.maxValue = some w.maxValue := fit?_eq_some rfl (by omega)
  rw [maxValue?, modulus?_bits, Option.bind_eq_bind, Option.bind_some, hsub, Option.bind_some,
    hcast]

theorem half?_bits (w : Width) : half? w.bits = some w.half := by
  have hone := w.one_le
  have hmax := w.le_max
  have hplace : fit? 8 (w.bits - 1) = some (w.bits - 1) := fit?_eq_some (by omega) (by omega)
  have hbit : bit? 64 (w.bits - 1) = some w.half := bit?_eq_some (by omega)
  simp only [half?, hplace, hbit, Option.bind_eq_bind, Option.bind_some]

theorem maxAddend?_bits (w : Width) : maxAddend? w.bits = some w.maxAddend := by
  have hpos := w.half_pos
  have hle := w.modulus_le
  have hm := w.modulus_eq
  have hmax : w.maxAddend = w.half - 1 := rfl
  have hsub : fit? 64 (w.half - 1) = some w.maxAddend := fit?_eq_some (by omega) (by omega)
  simp only [maxAddend?, half?_bits, hsub, Option.bind_eq_bind, Option.bind_some]

/-- The least word of 128 bits wraps into every space too. -/
theorem wrap?_bits (w : Width) (hx : IsArgument x) :
    wrap? x w.bits = some (Serial.ofInt w x).value := by
  have hpos := w.modulus_pos
  have hbits := w.le_max
  have harg : fitSigned? 128 x = some x := fitSigned?_eq_some hx.1 hx.2
  have hmod : signedBit? 128 w.bits = some (w.modulus : Int) := by
    rw [signedBit?_eq_some (by omega)]
    norm_cast
  have hrem : mod? x w.modulus = some (x % w.modulus) := mod?_eq_some (by omega)
  have hvalue : fit? 64 (x % w.modulus) = some (Serial.ofInt w x).value :=
    fit?_eq_some Serial.ofInt_value.symm (Serial.value_lt_two_pow _)
  simp only [wrap?, harg, hmod, hrem, hvalue, Option.bind_eq_bind, Option.bind_some]

theorem ofInt?_bits (w : Width) (hx : IsArgument x) :
    ofInt? x w.bits = some (Serial.ofInt w x).fields := by
  have hmax := w.le_max
  have hbits : fit? 8 w.bits = some w.bits := fit?_eq_some rfl (by omega)
  simp only [ofInt?, wrap?_bits w hx, hbits, Option.bind_eq_bind, Option.bind_some,
    Option.pure_def]
  rfl

theorem ofInt?_standard (h : k < 2 ^ 64) : ofInt? k 32 = some (Serial.ofInt .standard k).fields :=
  ofInt?_bits .standard (isArgument_of_lt_two_pow h)

theorem bits_ne_iff : a.fields.bits ≠ b.fields.bits ↔ a.width ≠ b.width :=
  not_congr Width.ext_iff.symm

theorem same_fields (a b : Serial) : same a.fields b.fields = decide (a ≈ b) := by
  simp [same, Serial.equiv_iff, Width.ext_iff, and_comm]

theorem fit?_sub (h : a.value < b.value) :
    fit? 64 (b.value - a.value) = some (b.value - a.value) := by
  have hb := b.value_lt_two_pow
  exact fit?_eq_some (by omega) (by omega)

theorem compare?_fields (a b : Serial) : compare? a.fields b.fields = some (a.compare? b) := by
  rw [compare?, Serial.compare?]
  by_cases hw : a.width = b.width
  · rw [if_neg (mt bits_ne_iff.1 (not_not_intro hw)), if_neg (not_not_intro hw), Serial.fields_bits,
      half?_bits, Option.bind_eq_bind, Option.bind_some, Serial.fields_value, Serial.fields_value]
    cases h : compare a.value b.value with
    | eq => rfl
    | lt =>
      simp only [fit?_sub (Nat.compare_eq_lt.1 h), Option.bind_some]
      cases compare (b.value - a.value) a.width.half <;> rfl
    | gt =>
      simp only [fit?_sub (Nat.compare_eq_gt.1 h), Option.bind_some]
      cases compare (a.value - b.value) a.width.half <;> rfl
  · rw [if_pos (bits_ne_iff.2 hw), if_pos hw]

section greatest
variable {α : Type} (serial : α → Serial)

/-- What is compared on words is what a list of serials, or of dates, is scanned by. -/
theorem greater?_fields (held item : Option α) :
    greater? (held.map fun a => (serial a).fields) (item.map fun a => (serial a).fields) =
      some ((greatest.step (fun a b => ((serial a).compare? (serial b)).isGT) held item).map
        fun a => (serial a).fields) := by
  cases item with
  | none => cases held <;> rfl
  | some x =>
    cases held with
    | none => rfl
    | some y =>
      simp only [Option.map_some, greater?, compare?_fields, greatest.step, Option.bind_eq_bind,
        Option.bind_some, Option.pure_def]
      split <;> rfl

-- By induction on the list, whatever is held when it is reached.
theorem greatest?_fields (items : List (Option α)) :
    greatest? (items.map (·.map fun a => (serial a).fields)) =
      some ((greatest (fun a b => ((serial a).compare? (serial b)).isGT) items).map
        fun a => (serial a).fields) := by
  suffices hfold : ∀ held : Option α,
      (items.map (·.map fun a => (serial a).fields)).foldlM greater?
          (held.map fun a => (serial a).fields) =
        some ((items.foldl (greatest.step fun a b => ((serial a).compare? (serial b)).isGT)
          held).map fun a => (serial a).fields) from hfold none
  induction items with
  | nil =>
    intro held
    rfl
  | cons item items ih =>
    intro held
    rw [List.map_cons, List.foldlM_cons, greater?_fields, List.foldl_cons]
    exact ih _

end greatest

theorem greatest?_serials (items : List (Option Serial)) :
    greatest? (items.map (·.map Serial.fields)) =
      some ((Serial.greatest? items).map Serial.fields) := greatest?_fields id items

/-- The sum of two values has room in 128 bits, and is back in 64 when it is reduced. -/
theorem reduced_sum (s n : Serial) :
    fit? 128 (s.value + n.value) = some (s.value + n.value) ∧
      mod? (s.value + n.value : Nat) s.width.modulus =
        some (((s.value + n.value) % s.width.modulus : Nat) : Int) ∧
      fit? 64 ((s.value + n.value) % s.width.modulus : Nat) = some (s.advance n.value).value := by
  have hs := s.value_lt_two_pow
  have hn := n.value_lt_two_pow
  have hpos := s.width.modulus_pos
  refine ⟨fit?_eq_some rfl (by omega), ?_, fit?_eq_some rfl (s.advance n.value).value_lt_two_pow⟩
  rw [mod?_eq_some (by omega), Int.natCast_mod]

theorem add?_fields (hs : s.Reachable) (n : Serial) :
    add? s.fields n.fields = some ((s.add n).map Serial.fields) := by
  rw [add?]
  by_cases hw : s.width = n.width
  · rw [if_neg (mt bits_ne_iff.1 (not_not_intro hw)), Serial.fields_bits, maxAddend?_bits,
      Option.bind_eq_bind, Option.bind_some]
    by_cases hmax : s.width.maxAddend < n.value
    · rw [Serial.fields_value, if_pos hmax,
        Serial.add_eq_error_iff.2 (Serial.refusal?_eq_addendTooLarge_iff.2 ⟨hw, hmax⟩)]
      rfl
    · -- Only this sum needs to know how the chain was reached.
      have hstart : s.fields.chain.getD s.fields.value = s.position := rfl
      have hchain : fit? 128 (s.position + n.value) = some (s.position + n.value) :=
        fit?_eq_some rfl (Serial.position_add_lt hs n)
      rw [Serial.fields_value, if_neg hmax, hstart, hchain, Option.bind_some, modulus?_bits,
        Option.bind_some]
      have hrefusal : s.refusal? n =
          if s.chain.isSome ∧ s.width.modulus < s.position + n.value then some .chainOverflow
          else none := by
        rw [Serial.refusal?, if_neg (not_not_intro hw), if_neg hmax]
      by_cases hend : s.chain.isSome ∧ s.width.modulus < s.position + n.value
      · rw [if_pos hend] at hrefusal
        rw [Serial.fields_chain, if_pos hend, Serial.add_eq_error_iff.2 hrefusal]
        rfl
      · rw [if_neg hend] at hrefusal
        obtain ⟨hsum, hrem, hvalue⟩ := reduced_sum s n
        rw [Serial.fields_chain, if_neg hend, Serial.add_eq_ok_iff.2 ⟨hrefusal, rfl⟩,
          Serial.fields_value, hsum, Option.bind_some, hrem, Option.bind_eq_bind, Option.bind_some,
          hvalue, Option.bind_some]
        rfl
  · rw [if_pos (bits_ne_iff.2 hw),
      Serial.add_eq_error_iff.2 (Serial.refusal?_eq_widthMismatch_iff.2 hw)]
    rfl

theorem ofBits?_eq_some (hx : IsArgument x) (bits : Nat) :
    ofBits? x bits = some ((Serial.ofBits x bits).map Serial.fields) := by
  rw [ofBits?, onOk?_eq_some (fun w _ => ofInt?_bits w hx), Serial.ofBits]
  cases Width.ofNat bits <;> rfl

theorem ofBits!?_eq_some (hx : IsArgument x) (bits : Nat) :
    ofBits!? x bits = some ((Serial.ofBits! x bits).map Serial.fields) := by
  rw [ofBits!?, onOk?_eq_some (fun w _ => ofInt?_bits w hx), Serial.ofBits!]
  cases Width.ofNat bits <;> rfl

theorem ofText?_eq_some (t : String) :
    ofText? t = some ((Serial.ofText t).map Serial.fields) := by
  have hread : ∀ k, Numeral.read (2 ^ 32) t.toList = .ok k →
      ofInt? k 32 = some (Serial.ofInt .standard k).fields := by
    intro k hk
    have hlt := Numeral.read_lt (by decide) hk
    exact ofInt?_standard (by omega)
  have hmodulus : Width.standard.modulus = 2 ^ 32 := rfl
  rw [ofText?, onOk?_eq_some hread, Serial.ofText, hmodulus]
  cases Numeral.read (2 ^ 32) t.toList <;> rfl

theorem ofJson?_eq_some (v : Json) : ofJson? v = some ((Serial.ofJson v).map Serial.fields) := by
  rw [ofJson?, Serial.ofJson]
  cases h : v.record with
  | error e => rfl
  | ok r =>
    obtain ⟨_, hvalue, _⟩ := Json.record_eq_ok_iff.1 h
    have hread : ofBits? r.1 r.2 = some ((Serial.ofBits r.1 r.2).map Serial.fields) :=
      ofBits?_eq_some (isArgument_of_lt_two_pow hvalue) r.2
    have hfields : ((Serial.ofBits r.1 r.2).map Serial.fields).mapError .invalidWidth =
        (Serial.ofFields r.1 r.2).map Serial.fields := by
      rw [Serial.ofFields]
      cases Serial.ofBits r.1 r.2 <;> rfl
    simp only [hread, Option.map_some, hfields]
    rfl

end Word
end SerialNumber
