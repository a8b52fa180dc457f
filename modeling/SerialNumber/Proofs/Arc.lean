import Mathlib.Data.Set.Defs
import SerialNumber.Proofs.Distance

/-! Serials that lie close together on the ring. Two steps up make one step up only if they are less
than half the ring together. So on an arc of that length the partial order is total, and is the
order of the places on the arc. -/
namespace SerialNumber

namespace Serial
variable {a b c : Serial} {w : Width} {p : Int} {j k : Nat}

/-- How the ends compare of two steps up that are `k` long together. -/
structure ComparesEnds (a c : Serial) (k : Nat) : Prop where
  less : a < c ↔ k < a.width.half
  apart : a.Apart c ↔ k = a.width.half
  greater : (a.compare? c).isGT ↔ a.width.half < k
  distinct : ¬ a ≈ c

/-- The serial lies `k` steps ahead of `p`, which are less than half the ring. -/
structure OnArc (a : Serial) (w : Width) (p : Int) (k : Nat) : Prop where
  width_eq : a.width = w
  value_eq : (a.value : Int) = (p + k) % w.modulus
  lt_half : k < w.half

/-- On `S`, which may hold a number with several chains, `<` is a strict total order. -/
structure StrictTotalOn (S : Set Serial) : Prop where
  irrefl : ∀ a ∈ S, ¬ a < a
  trans : ∀ a ∈ S, ∀ b ∈ S, ∀ c ∈ S, a < b → b < c → a < c
  exactlyOne : ∀ a ∈ S, ∀ b ∈ S, ExactlyOne (a < b) (a ≈ b) (b < a)

/-- Steps that do not go round the ring add up. -/
theorem distance_add_distance (hab : a.width = b.width) (hbc : b.width = c.width)
    (h : a.distance b + b.distance c < a.width.modulus) :
    a.distance c = a.distance b + b.distance c := by
  apply distance_eq_of_mod h
  calc (a.value + (a.distance b + b.distance c)) % a.width.modulus
      = ((a.value + a.distance b) % a.width.modulus + b.distance c) % a.width.modulus := by
        rw [Nat.mod_add_mod, Nat.add_assoc]
    _ = (b.value + b.distance c) % b.width.modulus := by rw [add_distance_mod hab, hab]
    _ = c.value := add_distance_mod hbc

/-- Two steps up are each less than half the ring, so that they do not go round it. -/
theorem comparesEnds_of_lt (hab : a < b) (hbc : b < c) :
    a.ComparesEnds c (a.distance b + b.distance c) := by
  have hw := width_eq_of_lt hab
  have hw' := width_eq_of_lt hbc
  have hm := a.width.modulus_eq
  obtain ⟨hpos, hlt⟩ := (lt_iff_distance hw).1 hab
  obtain ⟨_, hlt'⟩ := (lt_iff_distance hw').1 hbc
  rw [← hw] at hlt'
  have hends : a.compare? c = a.width.compareAhead (a.distance b + b.distance c) := by
    rw [compare?_eq_compareAhead (hw.trans hw'), distance_add_distance hw hw' (by omega)]
  constructor
  · rw [lt_iff, Comparison.isLT_iff, hends, Width.compareAhead_lt_iff]
    omega
  · rw [apart_iff, hends, Width.compareAhead_none_iff]
  · rw [Comparison.isGT_iff, hends, Width.compareAhead_gt_iff]
  · rw [← compare?_eq_iff_equiv, hends, Width.compareAhead_eq_iff]
    omega

theorem compare?_onArc (ha : a.OnArc w p j) (hb : b.OnArc w p k) :
    a.compare? b = some (compare j k) := by
  obtain ⟨rfl, hva, hj⟩ := ha
  obtain ⟨hw, hvb, hk⟩ := hb
  have hdist := distance_eq_emod hva hvb
  rw [Int.add_sub_add_left] at hdist
  rw [compare?_eq_compareAhead hw.symm]
  exact Width.compareAhead_of_emod hj hk hdist

theorem lt_onArc_iff (ha : a.OnArc w p j) (hb : b.OnArc w p k) : a < b ↔ j < k := by
  rw [lt_iff, Comparison.isLT_iff, compare?_onArc ha hb, Option.some.injEq, Nat.compare_eq_lt]

theorem isGT_onArc_iff (ha : a.OnArc w p j) (hb : b.OnArc w p k) : (a.compare? b).isGT ↔ k < j := by
  rw [Comparison.isGT_iff, compare?_onArc ha hb, Option.some.injEq, Nat.compare_eq_gt]

theorem isGE_onArc_iff (ha : a.OnArc w p j) (hb : b.OnArc w p k) : (a.compare? b).isGE ↔ k ≤ j := by
  simp only [Comparison.isGE_iff, compare?_onArc ha hb, Option.some.injEq, Nat.compare_eq_gt,
    Nat.compare_eq_eq]
  omega

theorem equiv_onArc_iff (ha : a.OnArc w p j) (hb : b.OnArc w p k) : a ≈ b ↔ j = k := by
  rw [← compare?_eq_iff_equiv, compare?_onArc ha hb, Option.some.injEq, Nat.compare_eq_eq]

theorem strictTotalOn_of_onArc {S : Set Serial} (hS : ∀ a ∈ S, ∃ k, a.OnArc w p k) :
    StrictTotalOn S := by
  constructor
  · intro a ha
    obtain ⟨k, hk⟩ := hS a ha
    rw [lt_onArc_iff hk hk]
    exact Nat.lt_irrefl k
  · intro a ha b hb c hc
    obtain ⟨i, hi⟩ := hS a ha
    obtain ⟨j, hj⟩ := hS b hb
    obtain ⟨k, hk⟩ := hS c hc
    rw [lt_onArc_iff hi hj, lt_onArc_iff hj hk, lt_onArc_iff hi hk]
    exact Nat.lt_trans
  · intro a ha b hb
    obtain ⟨j, hj⟩ := hS a ha
    obtain ⟨k, hk⟩ := hS b hb
    rw [ExactlyOne, lt_onArc_iff hj hk, equiv_onArc_iff hj hk, lt_onArc_iff hk hj]
    omega

/-- Two steps up lead to something greater, across the ring or to something smaller, as they are
together less than half the ring, half of it or more. On every arc of less than half the ring,
wherever it lies, `<` is a strict total order, and is the order of the offsets from its start. -/
theorem order_within_half_ring :
    (∀ a b c : Serial, a < b → b < c → a.ComparesEnds c (a.distance b + b.distance c)) ∧
    (∀ (w : Width) (p : Int) (S : Set Serial), (∀ a ∈ S, ∃ k, a.OnArc w p k) →
      StrictTotalOn S) ∧
    (∀ (w : Width) (p : Int) (a b : Serial) (j k : Nat), a.OnArc w p j → b.OnArc w p k →
      (a < b ↔ j < k) ∧ a.compare? b = some (compare j k)) := by
  refine ⟨?_, ?_, ?_⟩
  · intro a b c hab hbc
    exact comparesEnds_of_lt hab hbc
  · intro w p S hS
    exact strictTotalOn_of_onArc hS
  · intro w p a b j k ha hb
    exact ⟨lt_onArc_iff ha hb, compare?_onArc ha hb⟩

/-- In a space of 8 bits, `200 < 44` and `44 < 144`, but `144 < 200`. From 250 round to 100, all
values are in order. -/
theorem order_within_half_ring_past_the_end :
    ((Serial.ofInt { bits := 8 } 200).compare? (.ofInt { bits := 8 } 144)).isGT ∧
    StrictTotalOn {a | ∃ k : Nat, k ≤ 106 ∧ a = .ofInt { bits := 8 } (250 + k)} ∧
    Serial.ofInt { bits := 8 } 250 < .ofInt { bits := 8 } 4 := by
  obtain ⟨hends, htotal, hoffsets⟩ := order_within_half_ring
  refine ⟨?_, ?_, ?_⟩
  · exact (hends _ (.ofInt { bits := 8 } 44) _ (by decide) (by decide)).greater.2 (by decide)
  · refine htotal { bits := 8 } 250 _ ?_
    rintro a ⟨k, hk, rfl⟩
    exact ⟨k, rfl, ofInt_value, Nat.lt_of_le_of_lt hk (by decide)⟩
  · exact (hoffsets { bits := 8 } 250 _ _ 0 10 ⟨rfl, rfl, by decide⟩
      ⟨rfl, rfl, by decide⟩).1.2 (by decide)

end Serial
end SerialNumber
