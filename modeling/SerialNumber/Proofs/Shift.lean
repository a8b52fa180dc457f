import SerialNumber.Proofs.Distance
import SerialNumber.Proofs.Rebasing

/-! Common shifts. Two serials to which the same is added stay as far apart as they were, whether
none, one or both of them pass the end of the space. So they compare as before. -/
namespace SerialNumber.Serial
variable {a b s t u v : Serial} {ms ms' : List Move}

/-- `u` and `v` compare as `a` and `b` do. -/
structure ComparesAs (u v a b : Serial) : Prop where
  same : u ≈ v ↔ a ≈ b
  order : u.compare? v = a.compare? b

/-- Sameness is an outcome of the comparison. -/
theorem comparesAs_of_order (h : u.compare? v = a.compare? b) : ComparesAs u v a b :=
  ⟨by rw [← compare?_eq_iff_equiv, h, compare?_eq_iff_equiv], h⟩

theorem compare?_congr (hu : u ≈ a) (hv : v ≈ b) : u.compare? v = a.compare? b := by
  have hleft : (Operand.serial u).Same (.serial a) := hu
  have hright : (Operand.serial v).Same (.serial b) := hv
  exact Operand.compare?_eq_of_same hleft hright

theorem distance_shift (hw : a.width = b.width) (j : Nat) :
    (a.advance j).distance (b.advance j) = a.distance b := by
  have hlt : a.distance b < (a.advance j).width.modulus := distance_lt a b
  apply distance_eq_of_mod hlt
  calc ((a.value + j) % a.width.modulus + a.distance b) % a.width.modulus
      = ((a.value + a.distance b) % a.width.modulus + j) % a.width.modulus := by
        rw [Nat.mod_add_mod, Nat.mod_add_mod, Nat.add_right_comm]
    _ = (b.value + j) % b.width.modulus := by rw [add_distance_mod hw, hw]

theorem compare?_shift (a b : Serial) (j : Nat) :
    (a.advance j).compare? (b.advance j) = a.compare? b := by
  by_cases hw : a.width = b.width
  · have hw' : (a.advance j).width = (b.advance j).width := hw
    rw [compare?_eq_compareAhead hw', compare?_eq_compareAhead hw, distance_shift hw, advance_width]
  · have hw' : (a.advance j).width ≠ (b.advance j).width := hw
    rw [compare?_of_width_ne hw', compare?_of_width_ne hw]

theorem equiv_shift (h : a ≈ b) (j : Nat) : a.advance j ≈ b.advance j := by
  rw [← compare?_eq_iff_equiv, compare?_shift, compare?_eq_iff_equiv]
  exact h

/-- A run comes to the number to which its total leads at once, however often it forgets its
chain. -/
theorem equiv_advance_of_moveAll (h : s.moveAll ms = .ok t) :
    t ≈ s.advance (total (addends ms)) := by
  induction ms generalizing s with
  | nil =>
    cases h
    exact equiv_iff.2 ⟨rfl, (Nat.mod_eq_of_lt t.value_lt).symm⟩
  | cons m ms ih =>
    obtain ⟨r, hr, hrest⟩ := Outcome.bind_eq_ok_iff.1 (h : s.move m >>= (·.moveAll ms) = .ok t)
    have ht := ih hrest
    cases m with
    | add n =>
      obtain ⟨_, rfl⟩ := add_eq_ok_iff.1 (hr : s.add n = .ok r)
      rw [advance_advance, ← total_cons] at ht
      exact ht
    | rebase =>
      cases hr
      exact Setoid.trans ht (equiv_shift rebased_equiv _)

theorem moveAll_map_add (s : Serial) (ks : List Serial) : s.moveAll (ks.map .add) = s.addAll ks :=
  List.foldlM_map ..

/-- The chains, and where they are forgotten, are of no account. -/
theorem comparesAs_of_moveAll (h : addends ms = addends ms') (ha : a.moveAll ms = .ok u)
    (hb : b.moveAll ms' = .ok v) : ComparesAs u v a b := by
  have hu := equiv_advance_of_moveAll ha
  have hv := equiv_advance_of_moveAll hb
  rw [← h] at hv
  exact comparesAs_of_order ((compare?_congr hu hv).trans (compare?_shift a b _))

/-- Serials of one width to which the same is added, once or again and again, compare as before.
From fresh serials that always succeeds; otherwise it holds whenever both runs succeed, wherever
each of them forgets its chain. -/
theorem order_of_shifts :
    (∀ a b k : Serial, a.width = b.width → k.width = a.width → k.value ≤ a.width.maxAddend →
      ∃ u v, a.rebased.add k = .ok u ∧ b.rebased.add k = .ok v ∧ ComparesAs u v a b) ∧
    (∀ a b k u v : Serial, a.add k = .ok u → b.add k = .ok v → ComparesAs u v a b) ∧
    (∀ (a b : Serial) (ks : List Serial), a.width = b.width →
      (∀ k ∈ ks, k.width = a.width ∧ k.value ≤ a.width.maxAddend) →
      ∃ u v, a.moveAll (rebasingEach ks) = .ok u ∧ b.moveAll (rebasingEach ks) = .ok v ∧
        ComparesAs u v a b) ∧
    (∀ (a b u v : Serial) (ks : List Serial), a.addAll ks = .ok u → b.addAll ks = .ok v →
      ComparesAs u v a b) ∧
    (∀ (a b u v : Serial) (ms ms' : List Move), addends ms = addends ms' →
      a.moveAll ms = .ok u → b.moveAll ms' = .ok v → ComparesAs u v a b) := by
  refine ⟨?_, ?_, ?_, ?_, ?_⟩
  · intro a b k hw hkw hk
    have ha : a.rebased.add k = .ok (a.rebased.advance k.value) :=
      add_of_chain_none rfl hkw.symm hk
    have hb : b.rebased.add k = .ok (b.rebased.advance k.value) :=
      add_of_chain_none rfl (hw.symm.trans hkw.symm) (by rwa [rebased_width, ← hw])
    exact ⟨_, _, ha, hb, comparesAs_of_order (compare?_shift a.rebased b.rebased k.value)⟩
  · intro a b k u v ha hb
    obtain ⟨_, rfl⟩ := add_eq_ok_iff.1 ha
    obtain ⟨_, rfl⟩ := add_eq_ok_iff.1 hb
    exact comparesAs_of_order (compare?_shift a b k.value)
  · intro a b ks hw hks
    obtain ⟨u, hu, _⟩ := exists_moveAll_rebasingEach hks
    rw [hw] at hks
    obtain ⟨v, hv, _⟩ := exists_moveAll_rebasingEach hks
    exact ⟨u, v, hu, hv, comparesAs_of_moveAll rfl hu hv⟩
  · intro a b u v ks ha hb
    rw [← moveAll_map_add] at ha hb
    exact comparesAs_of_moveAll rfl ha hb
  · intro a b u v ms ms' h ha hb
    exact comparesAs_of_moveAll h ha hb

/-- In a space of 8 bits, `100 > 250`, although 250 is the larger value. Adding 10 takes 250 past
the end to 4, and leaves 110 greater. From 100 and 228, which are across the ring from each other,
adding 28 leads to 128 and 0, which are so too. -/
theorem order_of_shifts_past_the_end :
    (∃ u v, (ofInt { bits := 8 } 100).rebased.add (ofInt { bits := 8 } 10) = .ok u ∧
      (ofInt { bits := 8 } 250).rebased.add (ofInt { bits := 8 } 10) = .ok v ∧
      u.value = 110 ∧ v.value = 4 ∧ u.compare? v = some .gt) ∧
    (∃ u v, (ofInt { bits := 8 } 100).add (ofInt { bits := 8 } 28) = .ok u ∧
      ((ofInt { bits := 8 } 220).advance 8).add (ofInt { bits := 8 } 28) = .ok v ∧
      v.value = 0 ∧ u.compare? v = none) ∧
    (∃ u v, (ofInt { bits := 8 } 100).moveAll
        (rebasingEach [ofInt { bits := 8 } 100, ofInt { bits := 8 } 100]) = .ok u ∧
      (ofInt { bits := 8 } 250).moveAll
        (rebasingEach [ofInt { bits := 8 } 100, ofInt { bits := 8 } 100]) = .ok v ∧
      u.compare? v = some .gt) ∧
    (∃ u v,
      (ofInt { bits := 8 } 100).addAll [ofInt { bits := 8 } 5, ofInt { bits := 8 } 1] = .ok u ∧
      (ofInt { bits := 8 } 250).addAll [ofInt { bits := 8 } 5, ofInt { bits := 8 } 1] = .ok v ∧
      u.compare? v = some .gt) ∧
    (∃ u v, (ofInt { bits := 8 } 100).moveAll [.add (ofInt { bits := 8 } 5),
        .add (ofInt { bits := 8 } 100)] = .ok u ∧
      (ofInt { bits := 8 } 250).moveAll [.add (ofInt { bits := 8 } 5), .rebase,
        .add (ofInt { bits := 8 } 100)] = .ok v ∧ u.compare? v = some .gt) := by
  obtain ⟨hfresh, hchained, heach, hsums, hruns⟩ := order_of_shifts
  refine ⟨?_, ?_, ?_, ?_, ?_⟩
  · obtain ⟨u, v, hu, hv, h⟩ := hfresh (ofInt { bits := 8 } 100) (ofInt { bits := 8 } 250)
      (ofInt { bits := 8 } 10) rfl rfl (by decide)
    obtain ⟨_, rfl⟩ := add_eq_ok_iff.1 hu
    obtain ⟨_, rfl⟩ := add_eq_ok_iff.1 hv
    exact ⟨_, _, hu, hv, by decide, by decide, h.order⟩
  · have hu : (ofInt { bits := 8 } 100).add (ofInt { bits := 8 } 28) = .ok _ := rfl
    have hv : ((ofInt { bits := 8 } 220).advance 8).add (ofInt { bits := 8 } 28) = .ok _ := rfl
    exact ⟨_, _, hu, hv, rfl, (hchained _ _ _ _ _ hu hv).order⟩
  · obtain ⟨u, v, hu, hv, h⟩ := heach (ofInt { bits := 8 } 100) (ofInt { bits := 8 } 250)
      [ofInt { bits := 8 } 100, ofInt { bits := 8 } 100] rfl (by decide)
    exact ⟨u, v, hu, hv, h.order⟩
  · have hu : (ofInt { bits := 8 } 100).addAll
        [ofInt { bits := 8 } 5, ofInt { bits := 8 } 1] = .ok _ := rfl
    have hv : (ofInt { bits := 8 } 250).addAll
        [ofInt { bits := 8 } 5, ofInt { bits := 8 } 1] = .ok _ := rfl
    exact ⟨_, _, hu, hv, (hsums _ _ _ _ _ hu hv).order⟩
  · have hu : (ofInt { bits := 8 } 100).moveAll [.add (ofInt { bits := 8 } 5),
        .add (ofInt { bits := 8 } 100)] = .ok _ := rfl
    have hv : (ofInt { bits := 8 } 250).moveAll [.add (ofInt { bits := 8 } 5), .rebase,
        .add (ofInt { bits := 8 } 100)] = .ok _ := rfl
    have h := hruns _ _ _ _ _ _ (by rfl) hu hv
    exact ⟨_, _, hu, hv, h.order⟩

end SerialNumber.Serial
