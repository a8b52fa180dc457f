import SerialNumber.Call
import SerialNumber.Proofs.WordDate

/-! Calls on words. Every call that the types allow is answered as over the integers, and the only
one that does not return is the promise of a width that does not exist. -/
namespace SerialNumber

namespace Call
variable {α : Type}

/-- The call promises a width that no space has. -/
def WidthOutOfRange : Call α → Prop
  | .ofBits! _ bits => bits = 0 ∨ 64 < bits
  | _ => False

end Call

namespace Word
variable {α : Type} {x : Int} {bits : Nat}

/-- The call does not return: a step goes wrong, or the caller has not kept a promise. -/
def Panics (c : Call α) : Prop := answer? c = none ∨ ∃ b, answer? c = some (.error b)

theorem ofUInt32?_eq_some (n : UInt32) :
    ofInt? n.toNat 32 = some (Serial.ofUInt32 n).fields :=
  ofInt?_standard (Nat.lt_trans n.toNat_lt (by decide))

theorem dateOfSerial?_fields (s : Serial) :
    ofInt? s.fields.value 32 = some (DateSerial.ofSerial s).fields :=
  ofInt?_standard s.value_lt_two_pow

theorem same_operands (a b : Operand) : same a.fields b.fields = decide (a.Same b) := by
  simp only [Operand.same_iff]
  exact same_fields a.underlying b.underlying

theorem compare?_operands (a b : Operand) : compare? a.fields b.fields = some (a.compare? b) := by
  rw [Operand.compare?_eq]
  exact compare?_fields a.underlying b.underlying

/-- A call is answered on words as it is over the integers. -/
theorem answer?_eq_some (c : Call α) (hc : c.Admitted) : answer? c = some c.answer := by
  cases c with
  | ofInt x =>
    have hint : ofInt? x 32 = some (Serial.ofInt .standard x).fields := ofInt?_bits .standard hc
    rw [answer?, hint, Option.map_some, Call.answer]
  | ofBits x bits => rw [answer?, ofBits?_eq_some hc, Option.map_some, Call.answer]
  | ofBits! x bits => rw [answer?, ofBits!?_eq_some hc, Call.answer]
  | ofUInt32 n => rw [answer?, ofUInt32?_eq_some, Option.map_some, Call.answer]
  | ofText t => rw [answer?, ofText?_eq_some, Option.map_some, Call.answer]
  | ofJson v => rw [answer?, ofJson?_eq_some, Option.map_some, Call.answer]
  | value o => rfl
  | width o => rfl
  | modulus s => rw [answer?, Serial.fields_bits, modulus?_bits, Option.map_some, Call.answer]
  | maxValue s => rw [answer?, Serial.fields_bits, maxValue?_bits, Option.map_some, Call.answer]
  | half s => rw [answer?, Serial.fields_bits, half?_bits, Option.map_some, Call.answer]
  | maxAddend s => rw [answer?, Serial.fields_bits, maxAddend?_bits, Option.map_some, Call.answer]
  | rebased s => rfl
  | add s n => rw [answer?, add?_fields hc, Option.map_some, Call.answer]
  | same a b => rw [answer?, same_operands, Call.answer]
  | compare a b => rw [answer?, compare?_operands, Option.map_some, Call.answer]
  | canonical a b => rfl
  | greatest items => rw [answer?, greatest?_serials, Option.map_some, Call.answer]
  | hashInput o => rfl
  | text s => rfl
  | toJson s => rfl
  | dateOfUInt32 n =>
    rw [answer?, ofUInt32?_eq_some, Option.map_some, Call.answer]
    rfl
  | dateOfSerial s => rw [answer?, dateOfSerial?_fields, Option.map_some, Call.answer]
  | dateOfZoned z => rw [answer?, dateOfZoned?_eq_some hc, Option.map_some, Call.answer]
  | dateOfUniversal z => rw [answer?, dateOfUniversal?_eq_some hc, Option.map_some, Call.answer]
  | dateNow x =>
    obtain ⟨hx, hx'⟩ := hc
    have hint : ofInt? x 32 = some (DateSerial.ofSeconds x).fields :=
      ofInt?_bits .standard ⟨by omega, by omega⟩
    rw [answer?, hint, Option.map_some, Call.answer]
  | dateOfText t => rw [answer?, dateOfText?_eq_some, Option.map_some, Call.answer]
  | dateOfJson v => rw [answer?, dateOfJson?_eq_some, Option.map_some, Call.answer]
  | seconds d => rw [answer?, seconds?_fields, Option.map_some, Call.answer]
  | zoned d => rw [answer?, zoned?_fields, Option.map_some, Call.answer]
  | dateAdd d n => rw [answer?, dateAdd?_fields hc, Option.map_some, Call.answer]
  | dateGreatest items => rw [answer?, greatest?_dates, Option.map_some, Call.answer]
  | dateText d => rw [answer?, dateText?_fields, Option.map_some, Call.answer]
  | dateToJson d => rw [answer?, dateToJson?_fields, Option.map_some, Call.answer]

theorem panics_iff (c : Call α) (hc : c.Admitted) : Panics c ↔ c.WidthOutOfRange := by
  have hanswer : Panics c ↔ ∃ b, c.answer = .error b := by simp [Panics, answer?_eq_some c hc]
  rw [hanswer]
  cases c with
  | ofBits! x bits =>
    rw [Call.WidthOutOfRange, ← Serial.ofBits!_eq_error_iff (x := x), Call.answer]
    cases Serial.ofBits! x bits with
    | error b => exact iff_of_true ⟨b, rfl⟩ rfl
    | ok s => simp [Except.map]
  | _ => simp [Call.answer, Call.WidthOutOfRange]

/-- Words of the given sizes are enough: every step on them gives the number that it gives over the
integers, whatever a run of calls has led to. A call that the types allow returns, unless it
promises a width that does not exist. -/
theorem words_suffice :
    (∀ w : Width, modulus? w.bits = some w.modulus ∧ maxValue? w.bits = some w.maxValue ∧
      half? w.bits = some w.half ∧ maxAddend? w.bits = some w.maxAddend) ∧
    (∀ (w : Width) (x : Int), IsArgument x →
      ofInt? x w.bits = some (Serial.ofInt w x).fields) ∧
    (∀ a b : Serial, compare? a.fields b.fields = some (a.compare? b)) ∧
    (∀ s n : Serial, s.Reachable →
      add? s.fields n.fields = some ((s.add n).map Serial.fields)) ∧
    (∀ d : DateSerial, seconds? d.fields = some d.seconds) ∧
    (∀ bs : List UInt8, (∀ b ∈ bs, Numeral.IsDigitByte b) →
      (bs.length = 2 → digits? 8 bs = some (Numeral.byteValue bs)) ∧
      (bs.length = 4 → digits? 32 bs = some (Numeral.byteValue bs))) ∧
    (∀ (α : Type) (c : Call α), c.Admitted →
      answer? c = some c.answer ∧ (Panics c ↔ c.WidthOutOfRange)) ∧
    (∀ (x : Int) (bits : Nat),
      (Serial.ofBits! x bits = .error .widthOutOfRange ↔ bits = 0 ∨ 64 < bits) ∧
      (Serial.ofBits x bits = .error ⟨bits⟩ ↔ bits = 0 ∨ 64 < bits) ∧
      (1 ≤ bits → bits ≤ 64 →
        ∃ s, Serial.ofBits! x bits = .ok s ∧ Serial.ofBits x bits = .ok s)) := by
  refine ⟨?_, ?_, compare?_fields, ?_, seconds?_fields, ?_, ?_, ?_⟩
  · intro w
    exact ⟨modulus?_bits w, maxValue?_bits w, half?_bits w, maxAddend?_bits w⟩
  · intro w x hx
    exact ofInt?_bits w hx
  · intro s n hs
    exact add?_fields hs n
  · intro bs hbs
    constructor
    · intro hlen
      exact digits?_eq_some hbs (by rw [hlen]; decide)
    · intro hlen
      exact digits?_eq_some hbs (by rw [hlen]; decide)
  · intro α c hc
    exact ⟨answer?_eq_some c hc, panics_iff c hc⟩
  · intro x bits
    refine ⟨Serial.ofBits!_eq_error_iff, ?_, ?_⟩
    · rw [Serial.ofBits_eq_error_iff, and_iff_left rfl]
    · intro hone hmax
      have hs : Serial.ofBits x bits = .ok (Serial.ofInt ⟨bits, hone, hmax⟩ x) :=
        Serial.ofBits_eq_ok_iff.2 ⟨_, rfl, rfl⟩
      exact ⟨_, Serial.ofBits!_eq_ok_iff.2 hs, hs⟩

/-- In 64 bits: the least argument wraps, and the last value takes the largest addend although the
chain then passes `2 ^ 64`. A width of 65 is a broken promise. -/
theorem words_suffice_at_the_limits :
    ofInt? (-2 ^ 127) 64 = some ⟨0, 64, none⟩ ∧
    add? ⟨18446744073709551615, 64, none⟩ ⟨9223372036854775807, 64, none⟩ =
      some (.ok ⟨9223372036854775806, 64, some 27670116110564327422⟩) ∧
    digits? 8 [57, 57] = some 99 ∧
    ¬ Panics (.ofBits! (-2 ^ 127) 64) ∧ Panics (.ofBits! (-2 ^ 127) 65) := by
  have harg : IsArgument (-2 ^ 127) := ⟨by decide, by decide⟩
  have hadmitted : (Call.ofBits! (-2 ^ 127) 64).Admitted := harg
  have hadmitted' : (Call.ofBits! (-2 ^ 127) 65).Admitted := harg
  obtain ⟨_, hint, _, hadd, _, hdigits, hcalls, _⟩ := words_suffice
  let last : Serial := .ofInt { bits := 64 } (18446744073709551615 : Nat)
  let largest : Serial := .ofInt { bits := 64 } (9223372036854775807 : Nat)
  have hlast : last.Reachable := Serial.reachable_ofInt (by decide)
  have hwrapped : (Serial.ofInt { bits := 64 } (-2 ^ 127)).fields = ⟨0, 64, none⟩ := by decide
  have hsum : (last.add largest).map Serial.fields =
      .ok ⟨9223372036854775806, 64, some 27670116110564327422⟩ := by decide
  refine ⟨?_, ?_, ?_, ?_, ?_⟩
  · rw [← hwrapped]
    exact hint { bits := 64 } _ harg
  · rw [← hsum]
    exact hadd last largest hlast
  · exact (hdigits [57, 57] (by simp [Numeral.IsDigitByte])).1 rfl
  · intro hpanics
    have hwidth := (hcalls _ _ hadmitted).2.1 hpanics
    exact absurd hwidth (by decide : ¬ (64 = 0 ∨ 64 < 64))
  · exact (hcalls _ _ hadmitted').2.2 (by decide : 65 = 0 ∨ 64 < 65)

/-- Without their bounds the steps do go wrong. -/
example : half? 0 = none ∧ half? 65 = none ∧ digits? 8 [50, 53, 54] = none ∧
    add? ⟨0, 64, some (2 ^ 128 - 1)⟩ ⟨1, 64, none⟩ = none := by decide

end Word
end SerialNumber
