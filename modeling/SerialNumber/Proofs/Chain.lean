import SerialNumber.Reachable

/-! The chains that serials carry. A serial is reachable if and only if it has no chain, or its
chain stands at its value or one turn further, the latter only as far as one addition reaches. -/
namespace SerialNumber

theorem isArgument_of_lt {w : Width} {v : Nat} (h : v < w.modulus) : IsArgument v := by
  have hw := w.modulus_le
  constructor <;> omega

namespace Serial
variable {s n t : Serial} {w : Width} {x : Int} {v k : Nat}

/-- The chains that additions can leave at a value. Past zero they get in one step only, from
below the end of the space by at most the largest addend. -/
def Attainable (s : Serial) : Prop :=
  s.chain = none ∨ s.chain = some s.value ∨
    s.chain = some (s.value + s.width.modulus) ∧ s.value + 2 ≤ s.width.half

theorem attainable_ofInt : (ofInt w x).Attainable := Or.inl rfl

theorem attainable_ofBits {bits : Nat} (h : ofBits x bits = .ok s) : s.Attainable := by
  obtain ⟨w, _, rfl⟩ := ofBits_eq_ok_iff.1 h
  exact attainable_ofInt

theorem attainable_ofText {text : String} (h : ofText text = .ok s) : s.Attainable := by
  obtain ⟨m, _, rfl⟩ := Outcome.map_eq_ok_iff.1 h
  exact attainable_ofInt

theorem attainable_ofJson {j : Json} (h : ofJson j = .ok s) : s.Attainable := by
  obtain ⟨value, bits, h⟩ := ofFields_of_ofJson h
  exact attainable_ofBits (Outcome.mapError_eq_ok_iff.1 h)

theorem position_of_attainable (hs : s.Attainable) : s.position = s.value ∨
    s.chain ≠ none ∧ s.position = s.value + s.width.modulus ∧ s.value + 2 ≤ s.width.half := by
  rcases hs with hc | hc | ⟨hc, hroom⟩
  · exact Or.inl (position_of_chain_none hc)
  · exact Or.inl (position_of_chain_some hc)
  · exact Or.inr ⟨by simp [hc], position_of_chain_some hc, hroom⟩

/-- A step from no chain may carry by any amount below half the ring. From a chain it may only
carry onto zero, and from one turn further it cannot move at all. -/
theorem attainable_add (hs : s.Attainable) (h : s.add n = .ok t) : t.Attainable := by
  obtain ⟨hn, rfl⟩ := add_eq_ok_iff.1 h
  obtain ⟨_, hmax, hend⟩ := refusal?_eq_none_iff.1 hn
  have hv := s.value_lt
  have hm := s.width.modulus_eq
  have hh := s.width.maxAddend_lt_half
  by_cases hcarry : s.width.modulus ≤ s.value + n.value
  · have hval := advance_value_of_le hcarry (by omega)
    have hpos : s.position = s.value := by
      rcases position_of_attainable hs with hpos | ⟨_, _, hroom⟩
      · exact hpos
      · omega
    refine Or.inr (Or.inr ⟨?_, ?_⟩)
    · rw [advance_chain, advance_width, hval, hpos, Nat.sub_add_cancel hcarry]
    · rw [advance_width, hval]
      omega
  · have hval := advance_value_of_lt (Nat.lt_of_not_le hcarry)
    rcases position_of_attainable hs with hpos | ⟨hc, hpos, hroom⟩
    · exact Or.inr (Or.inl (by rw [advance_chain, hval, hpos]))
    · have hstay := hend.resolve_left hc
      refine Or.inr (Or.inr ⟨?_, ?_⟩)
      · rw [advance_chain, advance_width, hval, hpos, Nat.add_right_comm]
      · rw [advance_width, hval]
        omega

/-- Dates carry the chains of their serials. -/
theorem attainable_underlying {o : Operand} (h : o.Reachable) : o.underlying.Attainable := by
  induction h with
  | ofInt _ => exact attainable_ofInt
  | ofBits _ h => exact attainable_ofBits h
  | ofBits! _ h => exact attainable_ofBits (ofBits!_eq_ok_iff.1 h)
  | default => exact attainable_ofInt
  | ofUInt32 _ => exact attainable_ofInt
  | ofText h => exact attainable_ofText h
  | ofJson h => exact attainable_ofJson h
  | rebased _ _ => exact Or.inl rfl
  | add _ _ h ih _ => exact attainable_add ih h
  | greatest? _ h ih => exact ih _ (mem_of_greatest h)
  | ofDate _ ih => exact ih
  | dateDefault => exact attainable_ofInt
  | dateOfUInt32 _ => exact attainable_ofInt
  | dateOfSerial _ _ => exact attainable_ofInt
  | dateOfText h =>
    rw [DateSerial.ofText] at h
    split at h
    · cases h; exact attainable_ofInt
    · contradiction
  | dateOfZoned _ => exact attainable_ofInt
  | dateOfUniversal _ => exact attainable_ofInt
  | dateOfJson h =>
    obtain ⟨m, _, rfl⟩ := Outcome.map_eq_ok_iff.1 h
    exact attainable_ofInt
  | @dateAdd d e n _ _ h ih _ =>
    refine attainable_add (n := n) ih ?_
    rw [Operand.underlying, ← DateSerial.add_serial, h]
    rfl
  | dateGreatest? _ h ih => exact ih _ (mem_of_greatest h)

theorem reachable_ofInt (h : v < w.modulus) : (ofInt w v).Reachable :=
  Operand.Reachable.ofBits (isArgument_of_lt h) (ofBits_eq_ok_iff.2 ⟨w, rfl, rfl⟩)

theorem reachable_advance (hv : v < w.modulus) (hk : k ≤ w.maxAddend) :
    ((ofInt w v).advance k).Reachable := by
  have hkm : k < w.modulus := by
    have hm := w.modulus_eq
    have hh := w.maxAddend_lt_half
    omega
  have hval : (ofInt w k).value = k := ofInt_value_of_lt hkm
  have hadd : (ofInt w v).add (ofInt w k) = .ok ((ofInt w v).advance (ofInt w k).value) :=
    add_of_chain_none rfl rfl (by rwa [hval])
  rw [hval] at hadd
  exact Operand.Reachable.add (reachable_ofInt hv) (reachable_ofInt hkm) hadd

/-- A chain at the value comes from adding zero, and a chain one turn further from a step that
starts at the last value of the space. -/
theorem reachable_of_attainable (h : s.Attainable) : s.Reachable := by
  have hv := s.value_lt
  have hm := s.width.modulus_eq
  have hh := s.width.half_pos
  rcases h with hc | hc | ⟨hc, hroom⟩
  · rw [← ofInt_value_self hc]
    exact reachable_ofInt hv
  · have hs : (ofInt s.width s.value).advance 0 = s := by
      have hval := ofInt_value_of_lt hv
      refine Serial.ext (by rfl) ?_ ?_
      · rw [advance_value_of_lt (by rwa [hval]), hval, Nat.add_zero]
      · rw [advance_chain, position_of_chain_none rfl, hval, hc, Nat.add_zero]
    rw [← hs]
    exact reachable_advance hv (Nat.zero_le _)
  · have hlast : s.width.modulus - 1 < s.width.modulus := by omega
    have hs : (ofInt s.width (s.width.modulus - 1 : Nat)).advance (s.value + 1) = s := by
      have hval := ofInt_value_of_lt hlast
      refine Serial.ext (by rfl) ?_ ?_
      · have hle : s.width.modulus ≤ s.width.modulus - 1 + (s.value + 1) := by omega
        rw [advance_value_of_le (by rwa [hval]) (by rw [ofInt_width]; omega), hval, ofInt_width]
        omega
      · rw [advance_chain, position_of_chain_none rfl, hval, hc]
        congr 1
        omega
    rw [← hs]
    exact reachable_advance hlast (by rw [Width.maxAddend]; omega)

theorem reachable_iff : s.Reachable ↔ s.Attainable :=
  ⟨attainable_underlying, reachable_of_attainable⟩

theorem attainable_chain_mod (hs : s.Attainable) (hk : s.chain = some k) :
    k % s.width.modulus = s.value := by
  rcases hs with hc | hc | ⟨hc, _⟩ <;> rw [hk] at hc <;> cases hc
  · exact Nat.mod_eq_of_lt s.value_lt
  · rw [Nat.add_mod_right]
    exact Nat.mod_eq_of_lt s.value_lt

theorem attainable_chain_le (hs : s.Attainable) (hk : s.chain = some k) :
    k ≤ 3 * s.width.half - 2 := by
  have hv := s.value_lt
  have hm := s.width.modulus_eq
  have hh := s.width.half_pos
  rcases hs with hc | hc | ⟨hc, _⟩ <;> rw [hk] at hc <;> cases hc <;> omega

end Serial

/-- The states that a run of operations can reach, by width, value and chain. -/
theorem reachable_states :
    (∀ (bits value : Nat) (chain : Option Nat),
      (∃ s : Serial, s.Reachable ∧ s.width.bits = bits ∧ s.value = value ∧ s.chain = chain) ↔
        1 ≤ bits ∧ bits ≤ 64 ∧ value < 2 ^ bits ∧
          (chain = none ∨ chain = some value ∨
            chain = some (value + 2 ^ bits) ∧ value + 2 ≤ 2 ^ (bits - 1))) ∧
    (∀ (s : Serial) (k : Nat), s.Reachable → s.chain = some k →
      k % 2 ^ s.width.bits = s.value ∧ k ≤ 3 * 2 ^ (s.width.bits - 1) - 2) ∧
    (∀ d : DateSerial, d.Reachable → d.serial.Reachable ∧ d.serial.width.bits = 32) := by
  refine ⟨?_, ?_, ?_⟩
  · intro bits value chain
    constructor
    · rintro ⟨s, hs, rfl, rfl, rfl⟩
      exact ⟨s.width.one_le, s.width.le_max, s.value_lt, Serial.reachable_iff.1 hs⟩
    · rintro ⟨hone, hmax, hv, hchain⟩
      refine ⟨⟨⟨bits, hone, hmax⟩, value, chain, hv⟩, ?_, rfl, rfl, rfl⟩
      exact Serial.reachable_iff.2 hchain
  · intro s k hs hk
    have ha := Serial.reachable_iff.1 hs
    exact ⟨Serial.attainable_chain_mod ha hk, Serial.attainable_chain_le ha hk⟩
  · intro d hd
    exact ⟨Operand.Reachable.ofDate hd, by rw [d.width_eq]; rfl⟩

end SerialNumber
