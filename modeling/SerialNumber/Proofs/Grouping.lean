import SerialNumber.Outcome
import SerialNumber.Proofs.Run

/-! Groupings of two additions. To add one serial after the other, the chain has to have room for
both; to add their sum at once, it has to be an amount that can be added. Neither bound implies the
other, but where both groupings succeed, they lead to the same state. -/
namespace SerialNumber.Serial
variable {s u v a b : Serial} {w : Width}

/-- Each of the two can be added in a space of width `w`, and the first has no chain. -/
structure Groupable (w : Width) (a b : Serial) : Prop where
  left_width : a.width = w
  right_width : b.width = w
  left_le : a.value ≤ w.maxAddend
  right_le : b.value ≤ w.maxAddend
  left_fresh : a.chain = none

theorem add_of_groupable (h : Groupable w a b) : a.add b = .ok (a.advance b.value) := by
  have hmax := h.right_le
  rw [← h.left_width] at hmax
  exact add_of_chain_none h.left_fresh (h.left_width.trans h.right_width.symm) hmax

/-- Two amounts that can be added are together less than the ring. -/
theorem sum_value (h : Groupable w a b) : (a.advance b.value).value = a.value + b.value := by
  have hm := w.modulus_eq
  have hh := w.maxAddend_lt_half
  have hleft := h.left_le
  have hright := h.right_le
  apply advance_value_of_lt
  rw [h.left_width]
  omega

theorem add_comm_of_groupable (h : Groupable w a b) (hb : b.chain = none) : b.add a = a.add b := by
  have hswap : Groupable w b a := ⟨h.right_width, h.left_width, h.right_le, h.left_le, hb⟩
  have hposition : b.position + a.value = a.position + b.value := by
    rw [position_of_chain_none hb, position_of_chain_none h.left_fresh, Nat.add_comm]
  rw [add_of_groupable h, add_of_groupable hswap]
  refine congrArg _ (Serial.ext (h.right_width.trans h.left_width.symm) ?_ ?_)
  · rw [sum_value h, sum_value hswap, Nat.add_comm]
  · rw [advance_chain, advance_chain, hposition]

/-- Once the first has been added there is a chain, whose bound is tighter than that of the
first. -/
theorem add_add_eq_ok_iff (h : Groupable s.width a b) : s.add a >>= (·.add b) = .ok u ↔
    s.position + a.value + b.value ≤ s.width.modulus ∧ u = s.advance (a.value + b.value) := by
  rw [Outcome.bind_eq_ok_iff]
  constructor
  · rintro ⟨r, hr, hu⟩
    obtain ⟨_, rfl⟩ := add_eq_ok_iff.1 hr
    obtain ⟨hb, rfl⟩ := add_eq_ok_iff.1 hu
    obtain ⟨_, _, hnone | hroom⟩ := refusal?_eq_none_iff.1 hb
    · contradiction
    · exact ⟨hroom, advance_advance⟩
  · rintro ⟨hroom, rfl⟩
    have ha : s.add a = .ok (s.advance a.value) :=
      add_of_room h.left_width.symm h.left_le (by omega)
    have hb : (s.advance a.value).add b = .ok ((s.advance a.value).advance b.value) :=
      add_of_room h.right_width.symm h.right_le hroom
    exact ⟨_, ha, hb.trans (congrArg _ advance_advance)⟩

theorem add_add_of_no_room (h : Groupable s.width a b)
    (hpast : s.width.modulus < s.position + a.value + b.value) :
    s.add a >>= (·.add b) = .error .chainOverflow := by
  rw [Outcome.bind_eq_error_iff]
  by_cases hfirst : s.chain = none ∨ s.position + a.value ≤ s.width.modulus
  · right
    have ha : s.refusal? a = none :=
      refusal?_eq_none_iff.2 ⟨h.left_width.symm, h.left_le, hfirst⟩
    have hb : (s.advance a.value).add b = .error .chainOverflow :=
      add_of_no_room (by simp) h.right_width.symm h.right_le hpast
    exact ⟨_, add_eq_ok_iff.2 ⟨ha, rfl⟩, hb⟩
  · left
    rw [not_or, Nat.not_le] at hfirst
    exact add_of_no_room hfirst.1 h.left_width.symm h.left_le hfirst.2

theorem add_sum_eq_ok_iff (h : Groupable s.width a b) : s.add (a.advance b.value) = .ok v ↔
    a.value + b.value ≤ s.width.maxAddend ∧
      (s.chain = none ∨ s.position + a.value + b.value ≤ s.width.modulus) ∧
      v = s.advance (a.value + b.value) := by
  rw [add_eq_ok_iff, refusal?_eq_none_iff, sum_value h, advance_width, h.left_width,
    ← Nat.add_assoc]
  simp only [true_and, and_assoc]

theorem add_sum_of_too_large (h : Groupable s.width a b)
    (hlarge : s.width.maxAddend < a.value + b.value) :
    s.add (a.advance b.value) = .error .addendTooLarge := by
  rw [add_eq_error_iff, refusal?_eq_addendTooLarge_iff, sum_value h]
  exact ⟨h.left_width.symm, hlarge⟩

/-- Two amounts have a sum `t`. To add one of them after the other, or to add `t`, gives the same
state, chain and all, where both can be done. From a fresh start the former fails only if it passes
the end of the space, the latter only if `t` is too large an amount. Within a chain, the former
succeeds whenever the latter does. Between two fresh serials the order does not matter. -/
theorem grouping_of_additions (h : Groupable s.width a b) : ∃ t, a.add b = .ok t ∧
    t.value = a.value + b.value ∧
    (∀ u v, s.add a >>= (·.add b) = .ok u → s.add t = .ok v → u = v) ∧
    (s.chain = none →
      ((∃ v, s.add t = .ok v) ↔ a.value + b.value ≤ s.width.maxAddend) ∧
      (s.width.maxAddend < a.value + b.value → s.add t = .error .addendTooLarge) ∧
      ((∃ u, s.add a >>= (·.add b) = .ok u) ↔
        s.value + a.value + b.value ≤ s.width.modulus) ∧
      (s.width.modulus < s.value + a.value + b.value →
        s.add a >>= (·.add b) = .error .chainOverflow)) ∧
    (s.chain ≠ none → ∀ v, s.add t = .ok v → s.add a >>= (·.add b) = .ok v) ∧
    (b.chain = none → b.add a = .ok t) := by
  refine ⟨a.advance b.value, add_of_groupable h, sum_value h, ?_, ?_, ?_, ?_⟩
  · intro u v hu hv
    obtain ⟨_, rfl⟩ := (add_add_eq_ok_iff h).1 hu
    obtain ⟨_, _, rfl⟩ := (add_sum_eq_ok_iff h).1 hv
    rfl
  · intro hs
    have hposition := position_of_chain_none hs
    refine ⟨?_, add_sum_of_too_large h, ?_, ?_⟩
    · simp only [add_sum_eq_ok_iff h, hs, true_or, true_and, exists_and_left, exists_eq, and_true]
    · simp only [add_add_eq_ok_iff h, hposition, exists_and_left, exists_eq, and_true]
    · intro hpast
      exact add_add_of_no_room h (by rwa [hposition])
  · intro hs v hv
    obtain ⟨_, hroom, rfl⟩ := (add_sum_eq_ok_iff h).1 hv
    exact (add_add_eq_ok_iff h).2 ⟨hroom.resolve_left hs, rfl⟩
  · intro hb
    rw [add_comm_of_groupable h hb, add_of_groupable h]

/-- In a space of 8 bits, `(0 + 100) + 100` can be added, but `0 + 200` cannot; `200 + 120` can, but
`(200 + 60) + 60` cannot. From 200, reached by an addition, 16 and 40 lead to the end in both
ways. -/
theorem grouping_of_additions_either_way :
    (∃ t, (ofInt { bits := 8 } 100).add (ofInt { bits := 8 } 100) = .ok t ∧ t.value = 200 ∧
      (ofInt { bits := 8 } 0).add t = .error .addendTooLarge ∧
      ∃ u, (ofInt { bits := 8 } 0).add (ofInt { bits := 8 } 100) >>=
        (·.add (ofInt { bits := 8 } 100)) = .ok u) ∧
    (∃ t, (ofInt { bits := 8 } 60).add (ofInt { bits := 8 } 60) = .ok t ∧ t.value = 120 ∧
      (ofInt { bits := 8 } 200).add (ofInt { bits := 8 } 60) >>=
        (·.add (ofInt { bits := 8 } 60)) = .error .chainOverflow ∧
      ∃ v, (ofInt { bits := 8 } 200).add t = .ok v) ∧
    (∃ t v, (ofInt { bits := 8 } 16).add (ofInt { bits := 8 } 40) = .ok t ∧
      (ofInt { bits := 8 } 40).add (ofInt { bits := 8 } 16) = .ok t ∧
      ((ofInt { bits := 8 } 100).advance 100).add t = .ok v ∧
      ((ofInt { bits := 8 } 100).advance 100).add (ofInt { bits := 8 } 16) >>=
        (·.add (ofInt { bits := 8 } 40)) = .ok v) := by
  have hhundred : Groupable (ofInt { bits := 8 } 0).width (ofInt { bits := 8 } 100)
      (ofInt { bits := 8 } 100) := ⟨rfl, rfl, by decide, by decide, rfl⟩
  have hsixty : Groupable (ofInt { bits := 8 } 200).width (ofInt { bits := 8 } 60)
      (ofInt { bits := 8 } 60) := ⟨rfl, rfl, by decide, by decide, rfl⟩
  have hchain : Groupable ((ofInt { bits := 8 } 100).advance 100).width (ofInt { bits := 8 } 16)
      (ofInt { bits := 8 } 40) := ⟨rfl, rfl, by decide, by decide, rfl⟩
  obtain ⟨t, ht, hvalue, _, hfresh, _⟩ := grouping_of_additions hhundred
  obtain ⟨t', ht', hvalue', _, hfresh', _⟩ := grouping_of_additions hsixty
  obtain ⟨_, hsixteen, _, _, _, hchained, hswap⟩ := grouping_of_additions hchain
  obtain rfl := Except.ok.inj (hsixteen.symm.trans (add_of_groupable hchain))
  have hv : ((ofInt { bits := 8 } 100).advance 100).add
      ((ofInt { bits := 8 } 16).advance (ofInt { bits := 8 } 40).value) = .ok _ := rfl
  obtain ⟨_, hlarge, hturns, _⟩ := hfresh rfl
  obtain ⟨hsum, _, _, hpast⟩ := hfresh' rfl
  exact ⟨⟨t, ht, hvalue, hlarge (by decide), hturns.2 (by decide)⟩,
    ⟨t', ht', hvalue', hpast (by decide), hsum.2 (by decide)⟩,
    ⟨_, _, hsixteen, hswap rfl, hv, hchained (by simp) _ hv⟩⟩

end SerialNumber.Serial
