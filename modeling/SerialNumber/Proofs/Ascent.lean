import SerialNumber.Proofs.Chain
import SerialNumber.Proofs.Distance

/-! Additions move up. One serial is less than another exactly if a single addition leads from
the first to the second, and sums with one serial stand in the order of the amounts. -/
namespace SerialNumber.Serial
variable {a b s n t : Serial} {j k : Nat}

/-- Adding `n`, which is not zero, starts a chain at `a` that gets to `b`. -/
def Leads (a n b : Serial) : Prop :=
  n.width = a.width ∧ 1 ≤ n.value ∧ n.value ≤ a.width.maxAddend ∧
    ∃ r, a.rebased.add n = .ok r ∧ r ≈ b

theorem distance_advance (h : k < s.width.modulus) : s.distance (s.advance k) = k :=
  distance_eq_of_mod h rfl

/-- Two moves from one start are as far apart as their lengths. -/
theorem distance_advance_advance (s : Serial) (j k : Nat) :
    ((s.advance j).distance (s.advance k) : Int) = (k - j : Int) % s.width.modulus := by
  have h : ((s.advance j).distance (s.advance k) : Int) =
      ((s.value + k : Nat) - (s.value + j : Nat) : Int) % s.width.modulus :=
    distance_eq_emod rfl rfl
  rw [h]
  congr 1
  omega

/-- A move of less than half the ring goes up, unless it is none. -/
theorem compare?_advance (hk : k < s.width.half) :
    s.compare? (s.advance k) = some (compare 0 k) := by
  have hm := s.width.modulus_eq
  have hw : s.width = (s.advance k).width := rfl
  rw [compare?_eq_compareAhead hw, distance_advance (by omega)]
  rcases Nat.eq_zero_or_pos k with rfl | hpos
  · exact Width.compareAhead_eq_iff.2 rfl
  · rw [Nat.compare_eq_lt.2 hpos]
    exact Width.compareAhead_lt_iff.2 ⟨hpos, hk⟩

theorem compare?_advance_advance (hj : j < s.width.half) (hk : k < s.width.half) :
    (s.advance j).compare? (s.advance k) = some (compare j k) := by
  have hw : (s.advance j).width = (s.advance k).width := rfl
  rw [compare?_eq_compareAhead hw, advance_width]
  exact Width.compareAhead_of_emod hj hk (distance_advance_advance s j k)

/-- The amount that leads from one serial to another is the distance. -/
theorem distance_of_leads (h : a.Leads n b) : a.width = b.width ∧ n.value = a.distance b := by
  obtain ⟨_, _, hmax, r, hr, hrb⟩ := h
  obtain ⟨_, rfl⟩ := add_eq_ok_iff.1 hr
  obtain ⟨hw, hv⟩ := equiv_iff.1 hrb
  have hm := a.width.modulus_eq
  have hmax_lt := a.width.maxAddend_lt_half
  have hlt : n.value < a.width.modulus := by omega
  exact ⟨hw, (distance_eq_of_mod hlt hv).symm⟩

theorem lt_of_leads (h : a.Leads n b) : a < b := by
  obtain ⟨hw, hdist⟩ := distance_of_leads h
  obtain ⟨_, hpos, hmax, _⟩ := h
  have hmax_lt := a.width.maxAddend_lt_half
  exact (lt_iff_distance hw).2 (by omega)

theorem leads_of_lt (h : a < b) : a.Leads (ofInt a.width (a.distance b)) b := by
  have hw := width_eq_of_lt h
  obtain ⟨hpos, hlt⟩ := (lt_iff_distance hw).1 h
  have hval : (ofInt a.width (a.distance b)).value = a.distance b :=
    ofInt_value_of_lt (distance_lt a b)
  have hmax : (ofInt a.width (a.distance b)).value ≤ a.width.maxAddend := by
    rw [hval, Width.maxAddend]
    omega
  refine ⟨rfl, by omega, hmax, _, add_of_chain_none rfl rfl hmax, ?_⟩
  refine equiv_iff.2 ⟨hw, ?_⟩
  rw [hval]
  exact add_distance_mod hw

theorem compare?_of_add (h : a.add n = .ok t) : a.compare? t = some (compare 0 n.value) := by
  obtain ⟨hn, rfl⟩ := add_eq_ok_iff.1 h
  obtain ⟨_, hmax, _⟩ := refusal?_eq_none_iff.1 hn
  have hmax_lt := a.width.maxAddend_lt_half
  exact compare?_advance (by omega)

/-- Addition and comparison agree: to be less is to be reached by adding, the sum of any chain is
not below its start, and sums with one serial compare as the amounts do. -/
theorem add_agrees_with_order :
    (∀ a b : Serial, (a < b ↔ ∃ n : Serial, n.Reachable ∧ a.Leads n b) ∧
      (∀ n : Serial, a.Leads n b → a < b ∧ n.value = a.distance b) ∧
      (∀ m n : Serial, a.Leads m b → a.Leads n b → m ≈ n)) ∧
    (∀ a n t : Serial, a.add n = .ok t →
      (0 < n.value → a < t ∧ t.compare? a = some .gt) ∧ (n.value = 0 → t ≈ a)) ∧
    (∀ s x y : Serial, x.width = s.width → x.value ≤ s.width.maxAddend →
      y.width = s.width → y.value ≤ s.width.maxAddend →
      ∃ rx ry : Serial, s.rebased.add x = .ok rx ∧ s.rebased.add y = .ok ry ∧
        rx.compare? ry = some (compare x.value y.value)) := by
  refine ⟨?_, ?_, ?_⟩
  · intro a b
    refine ⟨⟨fun h => ?_, fun ⟨n, _, h⟩ => lt_of_leads h⟩, fun n h => ?_, fun m n hm hn => ?_⟩
    · exact ⟨_, reachable_ofInt (distance_lt a b), leads_of_lt h⟩
    · exact ⟨lt_of_leads h, (distance_of_leads h).2⟩
    · refine equiv_iff.2 ⟨hm.1.trans hn.1.symm, ?_⟩
      rw [(distance_of_leads hm).2, (distance_of_leads hn).2]
  · intro a n t h
    have hcmp := compare?_of_add h
    constructor
    · intro hpos
      rw [Nat.compare_eq_lt.2 hpos] at hcmp
      refine ⟨lt_iff.2 (Comparison.isLT_iff.2 hcmp), ?_⟩
      rw [compare?_swap a t, hcmp]
      rfl
    · intro hzero
      rw [Nat.compare_eq_eq.2 hzero.symm] at hcmp
      exact Setoid.symm (compare?_eq_iff_equiv.1 hcmp)
  · intro s x y hxw hx hyw hy
    have hmax_lt := s.width.maxAddend_lt_half
    refine ⟨_, _, add_of_chain_none rfl hxw.symm hx, add_of_chain_none rfl hyw.symm hy, ?_⟩
    exact compare?_advance_advance (by rw [rebased_width]; omega) (by rw [rebased_width]; omega)

end SerialNumber.Serial
