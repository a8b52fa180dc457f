import Mathlib.Algebra.Order.Ring.Int
import SerialNumber.DateSerial.Json
import SerialNumber.Outcome
import SerialNumber.Proofs.JsonText
import SerialNumber.Serial.Json

/-! The JSON form of serials and dates. A serial is written as value and width, in one way only, and
is read from everything that gives these two. -/
namespace SerialNumber

namespace Json
variable {v : Json} {o : Option Json} {r : Option Nat} {n value value' bits bits' : Nat}

/-- A value and a number of bits are given as fields of an object, which may have more fields, or as
the two items of a list. -/
inductive Records : Json → Nat → Nat → Prop
  | object {fields : List (String × Json)} {value bits : Nat}
      (hvalue : field? "value" fields = some (.integer value))
      (hbits : field? "serial_bits" fields = some (.integer bits)) :
      Records (.object fields) value bits
  | list (value bits : Nat) : Records (.list [.integer value, .integer bits]) value bits

theorem records_unique (h : v.Records value bits) (h' : v.Records value' bits') :
    value = value' ∧ bits = bits' := by
  cases h with
  | object hvalue hbits =>
    cases h' with
    | object hvalue' hbits' =>
      rw [hvalue] at hvalue'
      rw [hbits] at hbits'
      cases hvalue'
      cases hbits'
      exact ⟨rfl, rfl⟩
  | list value bits =>
    cases h'
    exact ⟨rfl, rfl⟩

theorem unsigned_eq_ok_iff : unsigned bits v = .ok n ↔ v = .integer n ∧ n < 2 ^ bits := by
  have hpow : Nat.pow 2 bits = 2 ^ bits := rfl
  cases v with
  | integer m =>
    rw [unsigned, hpow]
    split
    case isTrue hm =>
      obtain ⟨hnonneg, hlt⟩ := hm
      simp only [Except.ok.injEq, integer.injEq]
      omega
    case isFalse hm =>
      simp only [reduceCtorEq, integer.injEq, false_iff]
      rintro ⟨rfl, hlt⟩
      omega
  | _ => simp [unsigned]

/-- A field that is not there is not looked at. -/
theorem mapM_unsigned_eq_ok_iff : o.mapM (unsigned bits) = .ok r ↔
    (o = none ∧ r = none) ∨ ∃ n : Nat, o = some (.integer n) ∧ n < 2 ^ bits ∧ r = some n := by
  cases o with
  | none =>
    rw [Option.mapM_none]
    constructor
    · intro h
      cases h
      exact Or.inl ⟨rfl, rfl⟩
    · rintro (⟨_, rfl⟩ | ⟨n, hn, _⟩)
      · rfl
      · contradiction
  | some v =>
    rw [Option.mapM_some]
    constructor
    · intro h
      obtain ⟨n, hn, rfl⟩ := Outcome.map_eq_ok_iff.1 h
      obtain ⟨rfl, hlt⟩ := unsigned_eq_ok_iff.1 hn
      exact Or.inr ⟨n, rfl, hlt, rfl⟩
    · rintro (⟨hv, _⟩ | ⟨n, hn, hlt, rfl⟩)
      · contradiction
      · cases hn
        exact Outcome.map_eq_ok_iff.2 ⟨n, unsigned_eq_ok_iff.2 ⟨rfl, hlt⟩, rfl⟩

theorem records_object_iff {fields : List (String × Json)} :
    (object fields).Records value bits ↔
      field? "value" fields = some (.integer value) ∧
      field? "serial_bits" fields = some (.integer bits) := by
  constructor
  · intro h
    cases h with
    | object hvalue hbits => exact ⟨hvalue, hbits⟩
  · rintro ⟨hvalue, hbits⟩
    exact .object hvalue hbits

theorem record_object_eq_ok_iff {fields : List (String × Json)} :
    (object fields).record = .ok (value, bits) ↔
      (object fields).Records value bits ∧ value < 2 ^ 64 ∧ bits < 2 ^ 8 := by
  rw [records_object_iff]
  constructor
  · intro h
    obtain ⟨b, hb, hobject⟩ := Outcome.bind_eq_ok_iff.1 h
    obtain ⟨a, ha, hboth⟩ := Outcome.bind_eq_ok_iff.1 hobject
    clear h hobject
    split at hboth
    · exact (Outcome.throw_ne_ok hboth).elim
    · exact (Outcome.throw_ne_ok hboth).elim
    · cases hboth
      obtain ⟨_, hnone⟩ | ⟨_, hbits, hbitslt, hb'⟩ := mapM_unsigned_eq_ok_iff.1 hb
      · contradiction
      obtain ⟨_, hnone⟩ | ⟨_, hvalue, hvaluelt, ha'⟩ := mapM_unsigned_eq_ok_iff.1 ha
      · contradiction
      cases ha'
      cases hb'
      exact ⟨⟨hvalue, hbits⟩, hvaluelt, hbitslt⟩
  · rintro ⟨⟨hvalue, hbits⟩, hvaluelt, hbitslt⟩
    have hv : (field? "value" fields).mapM (unsigned 64) = .ok (some value) :=
      mapM_unsigned_eq_ok_iff.2 (Or.inr ⟨value, hvalue, hvaluelt, rfl⟩)
    have hb : (field? "serial_bits" fields).mapM (unsigned 8) = .ok (some bits) :=
      mapM_unsigned_eq_ok_iff.2 (Or.inr ⟨bits, hbits, hbitslt, rfl⟩)
    rw [record, hb, hv]
    rfl

theorem record_list_eq_ok_iff {items : List Json} :
    (list items).record = .ok (value, bits) ↔
      (list items).Records value bits ∧ value < 2 ^ 64 ∧ bits < 2 ^ 8 := by
  constructor
  · intro h
    rcases items with _ | ⟨first, _ | ⟨second, more⟩⟩
    · exact (Outcome.throw_ne_ok h).elim
    · obtain ⟨_, _, hnone⟩ := Outcome.bind_eq_ok_iff.1 h
      exact (Outcome.throw_ne_ok hnone).elim
    · obtain ⟨a, ha, hitems⟩ := Outcome.bind_eq_ok_iff.1 h
      obtain ⟨b, hb, hmore⟩ := Outcome.bind_eq_ok_iff.1 hitems
      obtain ⟨rfl, hvaluelt⟩ := unsigned_eq_ok_iff.1 ha
      obtain ⟨rfl, hbitslt⟩ := unsigned_eq_ok_iff.1 hb
      cases more with
      | nil =>
        cases hmore
        exact ⟨.list value bits, hvaluelt, hbitslt⟩
      | cons => exact (Outcome.throw_ne_ok hmore).elim
  · rintro ⟨hrecords, hvaluelt, hbitslt⟩
    cases hrecords
    have hv : unsigned 64 (.integer value) = .ok value := unsigned_eq_ok_iff.2 ⟨rfl, hvaluelt⟩
    have hb : unsigned 8 (.integer bits) = .ok bits := unsigned_eq_ok_iff.2 ⟨rfl, hbitslt⟩
    rw [record, hv, hb]
    rfl

/-- The two numbers of a form are read if they fit into their words. -/
theorem record_eq_ok_iff {r : Nat × Nat} :
    v.record = .ok r ↔ v.Records r.1 r.2 ∧ r.1 < 2 ^ 64 ∧ r.2 < 2 ^ 8 := by
  cases v with
  | object fields => exact record_object_eq_ok_iff
  | list items => exact record_list_eq_ok_iff
  | _ =>
    constructor
    · intro h
      exact (Outcome.throw_ne_ok h).elim
    · rintro ⟨hrecords, _⟩
      cases hrecords

end Json

namespace Serial
variable {s t : Serial} {v : Json} {value bits : Nat}

theorem ofFields_eq_ok_iff :
    ofFields value bits = .ok s ↔ s.width.bits = bits ∧ s = ofInt s.width value := by
  rw [ofFields, Outcome.mapError_eq_ok_iff, ofBits_eq_ok_iff]
  constructor
  · rintro ⟨w, rfl, rfl⟩
    exact ⟨rfl, rfl⟩
  · rintro ⟨rfl, hs⟩
    exact ⟨s.width, rfl, hs⟩

/-- A serial is read from a value of 64 bits and its width, given in either form. -/
theorem ofJson_eq_ok_iff : ofJson v = .ok s ↔
    ∃ value, value < 2 ^ 64 ∧ v.Records value s.width.bits ∧ s = ofInt s.width value := by
  rw [ofJson, Outcome.bind_eq_ok_iff]
  constructor
  · rintro ⟨r, hr, hfields⟩
    obtain ⟨hrecords, hlt, _⟩ := Json.record_eq_ok_iff.1 hr
    obtain ⟨hbits, hs⟩ := ofFields_eq_ok_iff.1 hfields
    rw [← hbits] at hrecords
    exact ⟨r.1, hlt, hrecords, hs⟩
  · rintro ⟨value, hlt, hrecords, hs⟩
    have hmax := s.width.le_max
    have hbits : s.width.bits < 2 ^ 8 := by omega
    exact ⟨(value, s.width.bits), Json.record_eq_ok_iff.2 ⟨hrecords, hlt, hbits⟩,
      ofFields_eq_ok_iff.2 ⟨rfl, hs⟩⟩

theorem toJson_eq_wholes (s : Serial) :
    s.toJson = .object (Json.wholes [("value", s.value), ("serial_bits", s.width.bits)]) := rfl

theorem records_toJson (s : Serial) : s.toJson.Records s.value s.width.bits := .object rfl rfl

theorem value_lt_two_pow (s : Serial) : s.value < 2 ^ 64 := by
  have hlt := s.value_lt
  have hle := s.width.modulus_le
  omega

/-- What is read back has lost its chain and nothing else. -/
theorem ofJson_toJson (s : Serial) : ofJson s.toJson = .ok s.rebased := by
  refine ofJson_eq_ok_iff.2 ⟨s.value, value_lt_two_pow s, records_toJson s, ?_⟩
  exact (ofInt_value_self rebased_chain).symm

theorem ofJson_toJson_of_ofJson (h : ofJson v = .ok s) : ofJson s.toJson = .ok s := by
  obtain ⟨value, _, _, hs⟩ := ofJson_eq_ok_iff.1 h
  have hchain : s.chain = none := by rw [hs, ofInt_chain]
  have hrebased : s.rebased = s := Serial.ext rfl rfl hchain.symm
  rw [ofJson_toJson, hrebased]

theorem parse?_compact_toJson (s : Serial) : Json.parse? s.toJson.compact = some s.toJson := by
  rw [toJson_eq_wholes]
  apply Json.parse?_compact_wholes
  · exact List.cons_ne_nil _ _
  · have hvalue : ∀ c ∈ "value".toList, Json.IsPlain c := by simp [Json.IsPlain]
    have hbits : ∀ c ∈ "serial_bits".toList, Json.IsPlain c := by simp [Json.IsPlain]
    intro f hf
    simp only [List.mem_cons, List.not_mem_nil, or_false] at hf
    rcases hf with rfl | rfl
    · exact hvalue
    · exact hbits
  · intro f hf
    have hvalue := value_lt_two_pow s
    have hmax := s.width.le_max
    simp only [List.mem_cons, List.not_mem_nil, or_false] at hf
    rcases hf with rfl | rfl
    · exact hvalue
    · omega

theorem width_value_of_ofJson (h : ofJson v = .ok s) (hv : v.Records value bits) :
    s.width.bits = bits ∧ s.value = value % 2 ^ bits := by
  obtain ⟨n, _, hn, hs⟩ := ofJson_eq_ok_iff.1 h
  obtain ⟨rfl, rfl⟩ := Json.records_unique hv hn
  refine ⟨rfl, ?_⟩
  rw [hs]
  exact ofInt_value_natCast

/-- Serials read from JSON are the same exactly if their widths are equal, and their values up to
whole turns of the ring. -/
theorem equiv_iff_of_records {v' : Json} {value' bits' : Nat} (h : ofJson v = .ok s)
    (h' : ofJson v' = .ok t) (hv : v.Records value bits) (hv' : v'.Records value' bits') :
    s ≈ t ↔ bits = bits' ∧ value % 2 ^ bits = value' % 2 ^ bits := by
  obtain ⟨rfl, hs⟩ := width_value_of_ofJson h hv
  obtain ⟨rfl, ht⟩ := width_value_of_ofJson h' hv'
  rw [equiv_iff, hs, ht, Width.ext_iff, and_congr_right_iff]
  intro hw
  rw [hw]

end Serial

namespace DateSerial
variable {d : DateSerial}

theorem ofJson_toJson (d : DateSerial) : ofJson d.toJson = .ok (ofSeconds d.seconds) := by
  have hlt : d.seconds < 2 ^ 32 := d.seconds_lt
  have hread : Json.unsigned 32 d.toJson = .ok d.seconds := Json.unsigned_eq_ok_iff.2 ⟨rfl, hlt⟩
  rw [ofJson, hread]
  rfl

theorem parse?_compact_toJson (d : DateSerial) : Json.parse? d.toJson.compact = some d.toJson := by
  have hlt := d.seconds_lt
  exact Json.parse?_compact_integer (by omega)

end DateSerial

/-- Serials and dates are read back from what is written of them, but for their chains. What is
written of a serial that has been read is its width and its value within the ring, and nothing else
is read from that. -/
theorem json_round_trip :
    (∀ s : Serial, Json.parse? s.toJson.compact = some s.toJson ∧
      ∃ t, Serial.ofJson s.toJson = .ok t ∧ t ≈ s ∧ t.chain = none) ∧
    (∀ d : DateSerial, Json.parse? d.toJson.compact = some d.toJson ∧
      (∃ n : Nat, d.toJson = .integer n ∧ n < 2 ^ 32) ∧
      ∃ e, DateSerial.ofJson d.toJson = .ok e ∧ e ≈ d ∧ e.serial.chain = none) ∧
    (∀ (v : Json) (s : Serial), Serial.ofJson v = .ok s →
      (∃ value bits : Nat, v.Records value bits ∧ s.toJson =
        .object [("value", .integer (value % 2 ^ bits : Nat)), ("serial_bits", .integer bits)]) ∧
      Serial.ofJson s.toJson = .ok s) ∧
    (∀ (v v' : Json) (s s' : Serial) (value bits value' bits' : Nat),
      Serial.ofJson v = .ok s → Serial.ofJson v' = .ok s' →
      v.Records value bits → v'.Records value' bits' →
      (s ≈ s' ↔ bits = bits' ∧ value % 2 ^ bits = value' % 2 ^ bits)) := by
  refine ⟨?_, ?_, ?_, ?_⟩
  · intro s
    exact ⟨s.parse?_compact_toJson, s.rebased, s.ofJson_toJson, Serial.rebased_equiv, rfl⟩
  · intro d
    refine ⟨d.parse?_compact_toJson, ⟨d.seconds, rfl, d.seconds_lt⟩, ?_⟩
    exact ⟨_, d.ofJson_toJson, d.ofSeconds_seconds_equiv, rfl⟩
  · intro v s h
    refine ⟨?_, Serial.ofJson_toJson_of_ofJson h⟩
    obtain ⟨value, _, hrecords, _⟩ := Serial.ofJson_eq_ok_iff.1 h
    refine ⟨value, s.width.bits, hrecords, ?_⟩
    rw [Serial.toJson, (Serial.width_value_of_ofJson h hrecords).2]
  · intro v v' s s' value bits value' bits' h h' hv hv'
    exact Serial.equiv_iff_of_records h h' hv hv'

/-- The value 300 in 8 bits, beside a field that is not read, is the same as 44 in a list. -/
theorem json_round_trip_past_the_end : ∃ s t : Serial,
    Serial.ofJson (.object
      [("serial_bits", .integer 8), ("note", .null), ("value", .integer 300)]) = .ok s ∧
    Serial.ofJson (.list [.integer 44, .integer 8]) = .ok t ∧ s ≈ t ∧
    s.toJson = .object [("value", .integer 44), ("serial_bits", .integer 8)] := by
  have hobject : Serial.ofJson (.object
      [("serial_bits", .integer 8), ("note", .null), ("value", .integer 300)]) = .ok _ := rfl
  have hlist : Serial.ofJson (.list [.integer 44, .integer 8]) = .ok _ := rfl
  obtain ⟨_, _, hwritten, hsame⟩ := json_round_trip
  refine ⟨_, _, hobject, hlist, ?_, ?_⟩
  · exact (hsame _ _ _ _ 300 8 44 8 hobject hlist (.object rfl rfl) (.list 44 8)).2 (by decide)
  · obtain ⟨⟨value, bits, hrecords, hjson⟩, _⟩ := hwritten _ _ hobject
    obtain ⟨rfl, rfl⟩ := Json.records_unique hrecords (.object rfl rfl)
    exact hjson

end SerialNumber
