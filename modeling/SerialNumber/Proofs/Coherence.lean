import SerialNumber.Proofs.Appearance
import SerialNumber.Proofs.Distance

/-! Sameness and order among serials and dates. The answers of all operators follow from one
comparison, whichever of the two operands is a date, and sameness is an equivalence that no
comparison tells apart. -/
namespace SerialNumber

/-- The operators answer as the order between their operands implies, where `same` says whether
these are the same. -/
structure Relations.Coherent (r : Relations Comparison) (same : Prop) : Prop where
  same_iff : same ↔ r.order = some .eq
  lt_iff : r.lt ↔ r.order = some .lt
  gt_iff : r.gt ↔ r.order = some .gt
  le_iff : r.le ↔ r.lt ∨ same
  ge_iff : r.ge ↔ r.gt ∨ same
  not_lt_and_same : ¬ (r.lt ∧ same)
  not_gt_and_same : ¬ (r.gt ∧ same)
  not_lt_and_gt : ¬ (r.lt ∧ r.gt)

namespace Operand
variable {o p q : Operand} {d : DateSerial} {s : Serial}

theorem same_iff_compare? : o.Same p ↔ o.compare? p = some .eq := by
  rw [same_iff, compare?_eq, Serial.compare?_eq_iff_equiv]

theorem compare?_swap (o p : Operand) : p.compare? o = (o.compare? p).swap := by
  rw [compare?_eq, compare?_eq]
  exact Serial.compare?_swap o.underlying p.underlying

theorem same_equivalence : Equivalence Same where
  refl o := same_iff.2 (Setoid.refl o.underlying)
  symm h := same_iff.2 (Setoid.symm (same_iff.1 h))
  trans h k := same_iff.2 (Setoid.trans (same_iff.1 h) (same_iff.1 k))

theorem coherent_relations (o p : Operand) : (o.relations p).Coherent (o.Same p) := by
  have hsame : o.Same p ↔ (o.relations p).order = some .eq := same_iff_compare?
  have hlt : (o.relations p).lt ↔ (o.relations p).order = some .lt := Comparison.isLT_iff
  have hgt : (o.relations p).gt ↔ (o.relations p).order = some .gt := Comparison.isGT_iff
  constructor
  · exact hsame
  · exact hlt
  · exact hgt
  · rw [hlt, hsame]
    exact Comparison.isLE_iff
  · rw [hgt, hsame]
    exact Comparison.isGE_iff
  · rw [hlt, hsame]
    rintro ⟨h, h'⟩
    simp [h] at h'
  · rw [hgt, hsame]
    rintro ⟨h, h'⟩
    simp [h] at h'
  · rw [hlt, hgt]
    rintro ⟨h, h'⟩
    simp [h] at h'

theorem compare?_of_width_ne (h : o.underlying.width ≠ p.underlying.width) :
    ¬ o.Same p ∧ o.compare? p = none := by
  have hnone : o.compare? p = none := by
    rw [compare?_eq]
    exact Serial.compare?_of_width_ne h
  refine ⟨?_, hnone⟩
  intro hsame
  rw [same_iff_compare?.1 hsame] at hnone
  contradiction

/-- Only serials of standard width can be compared with dates. -/
theorem width_ne_of_bits_ne (d : DateSerial) (hs : s.width.bits ≠ 32) :
    (date d).underlying.width ≠ (serial s).underlying.width := by
  intro h
  apply hs
  calc s.width.bits = d.serial.width.bits := congrArg Width.bits h.symm
    _ = 32 := congrArg Width.bits d.width_eq

/-- Serials and dates are compared by the serial numbers under them, and the operators agree with
that comparison and with each other. Whatever is the same compares in the same way with everything
else. A date cannot be compared with a serial of another width. -/
theorem operators_cohere :
    (∀ o p : Operand,
      (o.Same p ↔ o.underlying ≈ p.underlying) ∧
      o.compare? p = o.underlying.compare? p.underlying ∧
      (o.relations p).order = o.compare? p ∧ (o.relations p).Coherent (o.Same p) ∧
      (p.Same o ↔ o.Same p) ∧ p.compare? o = (o.compare? p).swap) ∧
    Equivalence Same ∧
    (∀ o o' p : Operand, o.Same o' →
      (o.Same p ↔ o'.Same p) ∧ o.relations p = o'.relations p ∧
      (p.Same o ↔ p.Same o') ∧ p.relations o = p.relations o') ∧
    (∀ (d : DateSerial) (s : Serial), s.width.bits ≠ 32 →
      (¬ (date d).Same (serial s) ∧ (date d).compare? (serial s) = none) ∧
      (¬ (serial s).Same (date d) ∧ (serial s).compare? (date d) = none)) := by
  refine ⟨?_, same_equivalence, ?_, ?_⟩
  · intro o p
    have hswap : p.Same o ↔ o.Same p := ⟨same_equivalence.symm, same_equivalence.symm⟩
    exact ⟨same_iff, compare?_eq, rfl, coherent_relations o p, hswap, compare?_swap o p⟩
  · intro o o' p h
    have hp := same_equivalence.refl p
    exact ⟨same_congr h hp, relations_eq_of_same h hp, same_congr hp h, relations_eq_of_same hp h⟩
  · intro d s hs
    have hw := width_ne_of_bits_ne d hs
    exact ⟨compare?_of_width_ne hw, compare?_of_width_ne hw.symm⟩

/-- One second after the epoch is the same as the serial 1 of standard width, although it has a
chain, and cannot be compared with the serial 1 of 8 bits. -/
theorem operators_cohere_one_second_on : ∃ d : DateSerial,
    (DateSerial.ofSeconds 0).add (.ofInt .standard 1) = .ok d ∧ d.serial.chain = some 1 ∧
      (date d).Same (serial (.ofInt .standard 1)) ∧
      (∀ p, (date d).relations p = (serial (.ofInt .standard 1)).relations p) ∧
      (date d).compare? (serial (.ofInt { bits := 8 } 1)) = none := by
  have hadd : (DateSerial.ofSeconds 0).add (.ofInt .standard 1) = .ok _ := rfl
  have hsame : (date ⟨(Serial.ofInt .standard 0).advance 1, rfl⟩).Same
      (serial (.ofInt .standard 1)) := by decide
  obtain ⟨_, _, hthird, hdate⟩ := operators_cohere
  refine ⟨_, hadd, rfl, hsame, ?_, ?_⟩
  · intro p
    exact (hthird _ _ p hsame).2.1
  · exact (hdate _ (.ofInt { bits := 8 } 1) (by decide)).1.2

end Operand
end SerialNumber
