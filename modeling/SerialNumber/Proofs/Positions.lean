import SerialNumber.Proofs.Ascent
import SerialNumber.Proofs.Carry
import SerialNumber.Proofs.Run

/-! Positions of one chain compared with each other. What is added from one to the other is at most
the whole ring, and the later one is greater until it has gone half of it. -/
namespace SerialNumber

namespace Serial
variable {s t n : Serial} {ms ns : List Serial} {i j : Nat}

/-- The serials that lead from position `i` of a run to position `j`. -/
def between (ns : List Serial) (i j : Nat) : List Serial := (ns.drop i).take (j - i)

/-- What is added from one to the other. -/
def stretch (ns : List Serial) (i j : Nat) : Nat := total (between ns i j)

theorem take_append_between (h : i ≤ j) : ns.take i ++ between ns i j = ns.take j := by
  have hj : j = i + (j - i) := by omega
  rw [between, ← List.take_add, ← hj]

theorem between_succ (h : ns[i]? = some n) : between ns i (i + 1) = [n] := by
  have htake : ns.take i ++ between ns i (i + 1) = ns.take (i + 1) :=
    take_append_between (Nat.le_add_right i 1)
  rw [take_succ_of_getElem? h] at htake
  exact List.append_cancel_left htake

/-- Only a single addition may pass the end of the space, and it is less than half the ring. -/
theorem admissible_cases (hs : s.Admissible ms) :
    total ms < s.width.half ∨ s.position + total ms ≤ s.width.modulus := by
  obtain ⟨hall, rfl | ⟨_, hone⟩ | hend⟩ := hs
  · exact Or.inl s.width.half_pos
  · obtain ⟨n, rfl⟩ := List.length_eq_one_iff.1 hone
    obtain ⟨_, hmax⟩ := hall n (List.mem_singleton_self n)
    left
    calc total [n] = n.value := by simp
      _ ≤ s.width.maxAddend := hmax
      _ < s.width.half := s.width.maxAddend_lt_half
  · exact Or.inr hend

theorem total_le_modulus (hs : s.Admissible ms) : total ms ≤ s.width.modulus := by
  have hm := s.width.modulus_eq
  rcases admissible_cases hs with hlt | hle <;> omega

/-- Who has gone the whole ring has started from zero. -/
theorem position_eq_zero_of_total (hs : s.Admissible ms) (h : total ms = s.width.modulus) :
    s.position = 0 := by
  have hm := s.width.modulus_eq
  have hpos := s.width.half_pos
  rcases admissible_cases hs with hlt | hle <;> omega

/-- Where a fresh start has not got off zero, the value is zero. -/
theorem after_value_eq_zero (hs : s.chain = none) (h : (s.after ms).position = 0) :
    (s.after ms).value = 0 := by
  rw [after_position, position_of_chain_none hs] at h
  have hv : s.value = 0 := by omega
  have htotal : total ms = 0 := by omega
  rw [after_value, hv, htotal, Nat.zero_mod]

/-- The way back is what is left of the ring. -/
theorem distance_after_self (h : total ms ≤ s.width.modulus) :
    (s.after ms).distance s = (s.width.modulus - total ms) % s.width.modulus := by
  apply distance_eq_of_mod
  · rw [after_width]
    exact Nat.mod_lt _ s.width.modulus_pos
  · calc ((s.after ms).value + (s.width.modulus - total ms) % s.width.modulus) %
          (s.after ms).width.modulus
        = (s.value + total ms + (s.width.modulus - total ms)) % s.width.modulus := by
          rw [after_width, after_value, ← Nat.add_mod]
      _ = (s.value + s.width.modulus) % s.width.modulus := by
          rw [Nat.add_assoc, Nat.add_sub_cancel' h]
      _ = s.value := by rw [Nat.add_mod_right, Nat.mod_eq_of_lt s.value_lt]

theorem distance_after_self_cases (h : total ms ≤ s.width.modulus) :
    (total ms = 0 ∨ total ms = s.width.modulus) ∧ (s.after ms).distance s = 0 ∨
      0 < total ms ∧ total ms < s.width.modulus ∧
        (s.after ms).distance s = s.width.modulus - total ms := by
  have hm := s.width.modulus_pos
  rw [distance_after_self h]
  rcases Nat.eq_zero_or_pos (total ms) with hzero | hpos
  · exact Or.inl ⟨Or.inl hzero, by rw [hzero, Nat.sub_zero, Nat.mod_self]⟩
  · rcases Nat.lt_or_eq_of_le h with hlt | heq
    · exact Or.inr ⟨hpos, hlt, Nat.mod_eq_of_lt (by omega)⟩
    · exact Or.inl ⟨Or.inr heq, by rw [heq, Nat.sub_self, Nat.zero_mod]⟩

/-- How a position compares with the one that it is ahead of by `k`. -/
structure ComparesBack (w : Width) (k : Nat) (c : Comparison) : Prop where
  equal : c = some .eq ↔ k = 0 ∨ k = w.modulus
  greater : c = some .gt ↔ 0 < k ∧ k < w.half
  apart : c = none ↔ k = w.half
  less : c = some .lt ↔ w.half < k ∧ k < w.modulus

theorem comparesBack_after (h : total ms ≤ s.width.modulus) :
    ComparesBack s.width (total ms) ((s.after ms).compare? s) := by
  have hm := s.width.modulus_eq
  have hh := s.width.half_pos
  have hback := distance_after_self_cases h
  rw [compare?_eq_compareAhead after_width, after_width]
  constructor
  · rw [Width.compareAhead_eq_iff]
    omega
  · rw [Width.compareAhead_gt_iff]
    omega
  · rw [Width.compareAhead_none_iff]
    omega
  · rw [Width.compareAhead_lt_iff]
    omega

end Serial

namespace Operand
variable {o p q : Operand} {ms ns : List Serial} {i j : Nat}

/-- Adds one serial after the other, up to the first that is refused. -/
def addAll (o : Operand) (ns : List Serial) : Except AddError Operand := ns.foldlM add o

theorem addAll_append : o.addAll (ms ++ ns) = o.addAll ms >>= (·.addAll ns) :=
  List.foldlM_append

theorem underlying_addAll (h : o.addAll ns = .ok p) :
    o.underlying.addAll ns = .ok p.underlying := by
  induction ns generalizing o with
  | nil =>
    cases h
    rfl
  | cons n ns ih =>
    obtain ⟨q, hq, hp⟩ := Outcome.bind_eq_ok_iff.1 (h : o.add n >>= (·.addAll ns) = .ok p)
    exact Outcome.bind_eq_ok_iff.2 ⟨_, underlying_add_of_ok hq, ih hp⟩

/-- A run that succeeds has been at every position on its way. -/
theorem exists_positions (h : o.addAll ns = .ok p) (hij : i ≤ j) : ∃ a b,
    o.addAll (ns.take i) = .ok a ∧ o.addAll (ns.take j) = .ok b ∧
      a.addAll (Serial.between ns i j) = .ok b := by
  rw [← List.take_append_drop j ns, addAll_append] at h
  obtain ⟨b, hb, _⟩ := Outcome.bind_eq_ok_iff.1 h
  have hj := hb
  rw [← Serial.take_append_between hij, addAll_append] at hj
  obtain ⟨a, ha, hab⟩ := Outcome.bind_eq_ok_iff.1 hj
  exact ⟨a, b, ha, hb, hab⟩

/-- Two positions of a chain that has started afresh are apart by what was added from the one to the
other. It is at most the whole ring, and the whole ring only from zero to zero. The later position
is the smaller one exactly if it has gone more than half the ring, but not all of it. -/
theorem positions_compare (ho : o.underlying.chain = none) (h : o.addAll ns = .ok p)
    (hij : i ≤ j) : ∃ a b, o.addAll (ns.take i) = .ok a ∧ o.addAll (ns.take j) = .ok b ∧
      Serial.stretch ns i j ≤ o.underlying.width.modulus ∧
      Serial.ComparesBack o.underlying.width (Serial.stretch ns i j) (b.compare? a) ∧
      (∀ n, j = i + 1 → ns[i]? = some n → 0 < n.value → b.compare? a = some .gt) ∧
      (Serial.stretch ns i j = o.underlying.width.modulus →
        a.underlying.value = 0 ∧ b.underlying.value = 0) := by
  obtain ⟨a, b, ha, hb, hab⟩ := exists_positions h hij
  refine ⟨a, b, ha, hb, ?_⟩
  obtain ⟨_, hstart⟩ := Serial.addAll_eq_ok_iff.1 (underlying_addAll ha)
  obtain ⟨hadm, hmove⟩ := Serial.addAll_eq_ok_iff.1 (underlying_addAll hab)
  have hw : a.underlying.width = o.underlying.width := by rw [hstart, Serial.after_width]
  have hle := Serial.total_le_modulus hadm
  have hcmp := Serial.comparesBack_after hle
  rw [← hmove, ← compare?_eq, hw] at hcmp
  refine ⟨hw ▸ hle, hcmp, ?_, ?_⟩
  · intro n hnext hn hpos
    subst hnext
    have hone := Serial.between_succ hn
    rw [hone] at hadm
    obtain ⟨_, hmax⟩ := hadm.1 n (List.mem_singleton_self n)
    have hlt := a.underlying.width.maxAddend_lt_half
    have hstretch : Serial.total (Serial.between ns i (i + 1)) = n.value := by simp [hone]
    apply hcmp.greater.2
    rw [hstretch, ← hw]
    omega
  · intro hwhole
    rw [← hw] at hwhole
    have hzero : a.underlying.value = 0 := by
      have hpos := Serial.position_eq_zero_of_total hadm hwhole
      rw [hstart] at hpos ⊢
      exact Serial.after_value_eq_zero ho hpos
    refine ⟨hzero, ?_⟩
    rw [hmove, Serial.after_value, hzero, Nat.zero_add]
    exact (congrArg (· % a.underlying.width.modulus) hwhole).trans (Nat.mod_self _)

/-- From the epoch, two of the longest steps lead to a date before it, and two seconds more to the
epoch again. -/
theorem positions_compare_round_the_ring : ∃ (ns : List Serial) (a b c : Operand),
    ns.map Serial.value = [2147483647, 2147483647, 2] ∧
      (date (.ofSeconds 0)).addAll (ns.take 0) = .ok a ∧
      (date (.ofSeconds 0)).addAll (ns.take 2) = .ok b ∧
      (date (.ofSeconds 0)).addAll (ns.take 3) = .ok c ∧
      b.compare? a = some .lt ∧ c.compare? a = some .eq ∧ c.underlying.value = 0 := by
  have hrun : (date (.ofSeconds 0)).addAll [.ofInt .standard 2147483647,
      .ofInt .standard 2147483647, .ofInt .standard 2] = .ok _ := rfl
  obtain ⟨a, b, ha, hb, _, hback, _, _⟩ := positions_compare rfl hrun (Nat.zero_le 2)
  obtain ⟨a', c, ha', hc, _, hwhole, _, hzero⟩ := positions_compare rfl hrun (Nat.zero_le 3)
  obtain rfl : a = a' := Except.ok.inj (ha.symm.trans ha')
  refine ⟨_, a, b, c, rfl, ha, hb, hc, hback.less.2 ?_, hwhole.equal.2 (Or.inr ?_), (hzero ?_).2⟩
  · decide
  · decide
  · decide

end Operand
end SerialNumber
