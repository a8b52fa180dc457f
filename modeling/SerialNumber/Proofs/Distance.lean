import SerialNumber.Serial.Order

/-! Distances on the ring. Serials of one width compare by how far the second lies ahead of the
first: less than half the ring, half the ring, or more. -/
namespace SerialNumber

/-- One of the three holds, and the other two do not. -/
def ExactlyOne (p q r : Prop) : Prop :=
  (p ∧ ¬ q ∧ ¬ r) ∨ (¬ p ∧ q ∧ ¬ r) ∨ (¬ p ∧ ¬ q ∧ r)

/-- How a serial compares with the one `d` steps ahead of it. -/
def Width.compareAhead (w : Width) (d : Nat) : Comparison :=
  if d = 0 then some .eq
  else if d < w.half then some .lt
  else if d = w.half then none
  else some .gt

namespace Width
variable {w : Width} {d : Nat}

theorem compareAhead_cases (w : Width) (d : Nat) :
    d = 0 ∧ w.compareAhead d = some .eq ∨
    0 < d ∧ d < w.half ∧ w.compareAhead d = some .lt ∨
    d = w.half ∧ w.compareAhead d = none ∨
    w.half < d ∧ w.compareAhead d = some .gt := by
  have hh := w.half_pos
  rcases Nat.lt_trichotomy d w.half with hlt | heq | hgt
  · by_cases hd : d = 0
    · exact Or.inl ⟨hd, by simp [compareAhead, hd]⟩
    · exact Or.inr (Or.inl ⟨by omega, hlt, by simp [compareAhead, hd, hlt]⟩)
  · refine Or.inr (Or.inr (Or.inl ⟨heq, ?_⟩))
    simp [compareAhead, heq, show w.half ≠ 0 by omega]
  · refine Or.inr (Or.inr (Or.inr ⟨hgt, ?_⟩))
    simp [compareAhead, show d ≠ 0 by omega, show ¬ d < w.half by omega,
      show d ≠ w.half by omega]

theorem compareAhead_eq_iff : w.compareAhead d = some .eq ↔ d = 0 := by
  have hh := w.half_pos
  rcases w.compareAhead_cases d with ⟨h, he⟩ | ⟨h, h', he⟩ | ⟨h, he⟩ | ⟨h, he⟩ <;>
    simp [he] <;> omega

theorem compareAhead_lt_iff : w.compareAhead d = some .lt ↔ 0 < d ∧ d < w.half := by
  rcases w.compareAhead_cases d with ⟨h, he⟩ | ⟨h, h', he⟩ | ⟨h, he⟩ | ⟨h, he⟩ <;>
    simp [he] <;> omega

theorem compareAhead_none_iff : w.compareAhead d = none ↔ d = w.half := by
  have hh := w.half_pos
  rcases w.compareAhead_cases d with ⟨h, he⟩ | ⟨h, h', he⟩ | ⟨h, he⟩ | ⟨h, he⟩ <;>
    simp [he] <;> omega

theorem compareAhead_gt_iff : w.compareAhead d = some .gt ↔ w.half < d := by
  have hh := w.half_pos
  rcases w.compareAhead_cases d with ⟨h, he⟩ | ⟨h, h', he⟩ | ⟨h, he⟩ | ⟨h, he⟩ <;>
    simp [he] <;> omega

/-- Steps of less than half the ring from one place compare as their lengths do. -/
theorem compareAhead_of_emod {j k : Nat} (hj : j < w.half) (hk : k < w.half)
    (h : (d : Int) = (k - j) % w.modulus) : w.compareAhead d = some (compare j k) := by
  have hm := w.modulus_eq
  rcases Nat.lt_trichotomy j k with hlt | rfl | hgt
  · rw [Int.emod_eq_of_lt (by omega) (by omega)] at h
    rw [Nat.compare_eq_lt.2 hlt]
    exact compareAhead_lt_iff.2 (by omega)
  · rw [Int.sub_self, Int.zero_emod] at h
    rw [Nat.compare_eq_eq.2 rfl]
    exact compareAhead_eq_iff.2 (by omega)
  · rw [← Int.add_emod_right, Int.emod_eq_of_lt (by omega) (by omega)] at h
    rw [Nat.compare_eq_gt.2 hgt]
    exact compareAhead_gt_iff.2 (by omega)

/-- The way back is the rest of the ring. -/
theorem compareAhead_swap (hd : 0 < d) (hlt : d < w.modulus) :
    w.compareAhead (w.modulus - d) = (w.compareAhead d).swap := by
  have hm := w.modulus_eq
  rcases w.compareAhead_cases d with ⟨h, he⟩ | ⟨h, h', he⟩ | ⟨h, he⟩ | ⟨h, he⟩ <;> rw [he]
  · omega
  · exact compareAhead_gt_iff.2 (by omega)
  · exact compareAhead_none_iff.2 (by omega)
  · exact compareAhead_lt_iff.2 (by omega)

end Width

namespace Serial
variable {a b c : Serial} {d : Nat}

theorem distance_of_le (hw : a.width = b.width) (h : a.value ≤ b.value) :
    a.distance b = b.value - a.value := by
  have hb := b.value_lt
  rw [← hw] at hb
  rw [distance, Int.emod_eq_of_lt (by omega) (by omega)]
  omega

theorem distance_of_lt (h : b.value < a.value) :
    a.distance b = b.value + a.width.modulus - a.value := by
  have ha := a.value_lt
  rw [distance, ← Int.add_emod_right, Int.emod_eq_of_lt (by omega) (by omega)]
  omega

theorem distance_lt (a b : Serial) : a.distance b < a.width.modulus := by
  have hm := a.width.modulus_pos
  have hlt := Int.emod_lt_of_pos (b.value - a.value : Int) (b := a.width.modulus) (by omega)
  rw [distance]
  omega

theorem distance_eq_zero_iff (hw : a.width = b.width) :
    a.distance b = 0 ↔ a.value = b.value := by
  have ha := a.value_lt
  rcases Nat.lt_or_ge b.value a.value with hlt | hle
  · rw [distance_of_lt hlt]
    omega
  · rw [distance_of_le hw hle]
    omega

theorem distance_back (hw : a.width = b.width) (h : a.distance b ≠ 0) :
    b.distance a = a.width.modulus - a.distance b := by
  have ha := a.value_lt
  have hb := b.value_lt
  have hne : a.value ≠ b.value := fun he => h ((distance_eq_zero_iff hw).2 he)
  rcases Nat.lt_or_gt_of_ne hne with hlt | hgt
  · rw [distance_of_lt hlt, distance_of_le hw (Nat.le_of_lt hlt), ← hw]
    omega
  · rw [distance_of_le hw.symm (Nat.le_of_lt hgt), distance_of_lt hgt]
    omega

/-- The distance is what leads from the first value to the second. -/
theorem add_distance_mod (hw : a.width = b.width) :
    (a.value + a.distance b) % a.width.modulus = b.value := by
  have ha := a.value_lt
  have hb := b.value_lt
  rw [← hw] at hb
  rcases Nat.lt_or_ge b.value a.value with hlt | hle
  · rw [distance_of_lt hlt, Nat.add_sub_cancel' (by omega), Nat.add_mod_right,
      Nat.mod_eq_of_lt hb]
  · rw [distance_of_le hw hle, Nat.add_sub_cancel' hle, Nat.mod_eq_of_lt hb]

/-- Distances do not see whole turns. -/
theorem distance_eq_emod {x y : Int} (ha : (a.value : Int) = x % a.width.modulus)
    (hb : (b.value : Int) = y % a.width.modulus) :
    (a.distance b : Int) = (y - x) % a.width.modulus := by
  have hm := a.width.modulus_pos
  rw [distance, ha, hb, Int.emod_sub_emod, Int.sub_emod_emod]
  exact Int.toNat_of_nonneg (Int.emod_nonneg _ (by omega))

theorem distance_eq_of_mod (hd : d < a.width.modulus)
    (h : (a.value + d) % a.width.modulus = b.value) : a.distance b = d := by
  have ha := a.value_lt
  have hval : (a.value : Int) = a.value % a.width.modulus :=
    (Int.emod_eq_of_lt (by omega) (by omega)).symm
  have hdist : (a.distance b : Int) = ((a.value + d : Nat) - a.value : Int) % a.width.modulus :=
    distance_eq_emod hval (by rw [← h]; rfl)
  rw [Int.emod_eq_of_lt (by omega) (by omega)] at hdist
  omega

theorem compare?_eq_compareAhead (hw : a.width = b.width) :
    a.compare? b = a.width.compareAhead (a.distance b) := by
  have ha := a.value_lt
  have hm := a.width.modulus_eq
  have hh := a.width.half_pos
  rw [compare?, if_neg (not_not_intro hw)]
  rcases Nat.lt_trichotomy a.value b.value with hlt | heq | hgt
  · rw [Nat.compare_eq_lt.2 hlt, distance_of_le hw (Nat.le_of_lt hlt)]
    rcases Nat.lt_trichotomy (b.value - a.value) a.width.half with h | h | h
    · rw [Nat.compare_eq_lt.2 h, Width.compareAhead_lt_iff.2 ⟨by omega, h⟩]
    · rw [Nat.compare_eq_eq.2 h, Width.compareAhead_none_iff.2 h]
    · rw [Nat.compare_eq_gt.2 h, Width.compareAhead_gt_iff.2 h]
  · rw [Nat.compare_eq_eq.2 heq, Width.compareAhead_eq_iff.2 ((distance_eq_zero_iff hw).2 heq)]
  · rw [Nat.compare_eq_gt.2 hgt, distance_of_lt hgt]
    rcases Nat.lt_trichotomy (a.value - b.value) a.width.half with h | h | h
    · rw [Nat.compare_eq_lt.2 h, Width.compareAhead_gt_iff.2 (by omega)]
    · rw [Nat.compare_eq_eq.2 h, Width.compareAhead_none_iff.2 (by omega)]
    · rw [Nat.compare_eq_gt.2 h, Width.compareAhead_lt_iff.2 ⟨by omega, by omega⟩]

theorem lt_iff_distance (hw : a.width = b.width) :
    a < b ↔ 0 < a.distance b ∧ a.distance b < a.width.half := by
  rw [lt_iff, Comparison.isLT_iff, compare?_eq_compareAhead hw, Width.compareAhead_lt_iff]

theorem width_eq_of_lt (h : a < b) : a.width = b.width := by
  by_cases hw : a.width = b.width
  · exact hw
  · rw [lt_iff, compare?_of_width_ne hw] at h
    contradiction

theorem compare?_swap (a b : Serial) : b.compare? a = (a.compare? b).swap := by
  by_cases hw : a.width = b.width
  · rw [compare?_eq_compareAhead hw, compare?_eq_compareAhead hw.symm, ← hw]
    by_cases hd : a.distance b = 0
    · have hv := (distance_eq_zero_iff hw).1 hd
      rw [hd, (distance_eq_zero_iff hw.symm).2 hv.symm, Width.compareAhead_eq_iff.2 rfl]
      rfl
    · rw [distance_back hw hd, Width.compareAhead_swap (by omega) (distance_lt a b)]
  · rw [compare?_of_width_ne hw, compare?_of_width_ne (Ne.symm hw)]
    rfl

theorem compare?_eq_iff_equiv : a.compare? b = some .eq ↔ a ≈ b := by
  rw [equiv_iff]
  by_cases hw : a.width = b.width
  · rw [compare?_eq_compareAhead hw, Width.compareAhead_eq_iff, distance_eq_zero_iff hw]
    exact (and_iff_right hw).symm
  · simp [compare?_of_width_ne hw, hw]

/-- No relation holds from the first to the second, neither sameness nor one of order. -/
def Apart (a b : Serial) : Prop :=
  ¬ a ≈ b ∧ ¬ a < b ∧ ¬ a ≤ b ∧ ¬ (a.compare? b).isGT ∧ ¬ (a.compare? b).isGE

/-- The serial across the ring. -/
def opposite (a : Serial) : Serial := ofInt a.width (a.value + a.width.half)

theorem apart_iff : a.Apart b ↔ a.compare? b = none := by
  rw [Apart, lt_iff, le_iff, Comparison.isLT_iff, Comparison.isLE_iff, Comparison.isGT_iff,
    Comparison.isGE_iff, ← compare?_eq_iff_equiv]
  rcases a.compare? b with _ | _ | _ | _ <;> simp

theorem opposite_value (a : Serial) :
    a.opposite.value = (a.value + a.width.half) % a.width.modulus :=
  ofInt_value_natCast (n := a.value + a.width.half)

theorem distance_eq_half_iff (hw : a.width = b.width) :
    a.distance b = a.width.half ↔ b ≈ a.opposite := by
  constructor
  · intro h
    refine equiv_iff.2 ⟨hw.symm, ?_⟩
    rw [opposite_value, ← h, add_distance_mod hw]
  · intro h
    have hm := a.width.modulus_eq
    have hh := a.width.half_pos
    exact distance_eq_of_mod (by omega) (by rw [← opposite_value, (equiv_iff.1 h).2])

theorem exactly_one_relation (hne : a.compare? b ≠ none) :
    ExactlyOne (a < b) (a ≈ b) (a.compare? b).isGT := by
  rw [ExactlyOne, lt_iff, Comparison.isLT_iff, Comparison.isGT_iff, ← compare?_eq_iff_equiv]
  rcases h : a.compare? b with _ | _ | _ | _
  · exact (hne h).elim
  · exact Or.inl (by simp)
  · exact Or.inr (Or.inl (by simp))
  · exact Or.inr (Or.inr (by simp))

/-- The partial order is the order of distances on the ring. Only the serial across the ring is
not ordered against a serial of its width. -/
theorem order_by_distance (a b : Serial) :
    (a.width ≠ b.width → a.compare? b = none) ∧
    (a.width = b.width →
      (a.compare? b = some .eq ↔ a.distance b = 0) ∧
      (a.compare? b = some .lt ↔ 0 < a.distance b ∧ a.distance b < a.width.half) ∧
      (a.compare? b = none ↔ a.distance b = a.width.half) ∧
      (a.compare? b = some .gt ↔ a.width.half < a.distance b)) ∧
    b.compare? a = (a.compare? b).swap ∧
    (a.width = b.width → a.distance b ≠ a.width.half →
      ExactlyOne (a < b) (a ≈ b) (a.compare? b).isGT) ∧
    a.opposite.width = a.width ∧
    (∀ c : Serial, c.width = a.width → (a.Apart c ∧ c.Apart a ↔ c ≈ a.opposite)) := by
  refine ⟨compare?_of_width_ne, ?_, compare?_swap a b, ?_, rfl, ?_⟩
  · intro hw
    rw [compare?_eq_compareAhead hw]
    exact ⟨Width.compareAhead_eq_iff, Width.compareAhead_lt_iff, Width.compareAhead_none_iff,
      Width.compareAhead_gt_iff⟩
  · intro hw hd
    apply exactly_one_relation
    rw [compare?_eq_compareAhead hw]
    exact mt Width.compareAhead_none_iff.1 hd
  · intro c hw
    rw [apart_iff, apart_iff, compare?_swap a c, Comparison.swap_eq_none_iff, and_self,
      compare?_eq_compareAhead hw.symm, Width.compareAhead_none_iff, distance_eq_half_iff hw.symm]

end Serial
end SerialNumber
