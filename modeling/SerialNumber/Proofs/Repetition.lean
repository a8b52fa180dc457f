import SerialNumber.Proofs.Carry
import SerialNumber.Proofs.Chain
import SerialNumber.Proofs.Run

/-! One amount added again and again. Each addition takes up as much of what is left up to the end
of the space, so that the loop ends when the amount does not fit any more. Only the first addition
of a chain needs no room, and zero needs none unless the chain has gone beyond the end. -/
namespace SerialNumber.Serial
variable {s t t' u k : Serial} {e e' : AddError} {i m m' : Nat}

/-- The loop that adds `k` until that is refused. It makes `m` additions, which lead to `t`, where
the next one is refused for `e`. -/
inductive Repeats (k : Serial) : Serial → Nat → Serial → AddError → Prop
  | stop {s : Serial} {e : AddError} (h : s.add k = .error e) : Repeats k s 0 s e
  | again {s r t : Serial} {m : Nat} {e : AddError} (h : s.add k = .ok r)
      (hrest : Repeats k r m t e) : Repeats k s (m + 1) t e

/-- How often `k` fits between the position and the end of the space. -/
def room (s k : Serial) : Nat := (s.width.modulus - s.position) / k.value

/-- How often `k` can be added. -/
def repetitions (s k : Serial) : Nat := if s.chain = none then max 1 (s.room k) else s.room k

theorem repeats_unique (h : Repeats k s m t e) (h' : Repeats k s m' t' e') :
    m' = m ∧ t' = t ∧ e' = e := by
  induction h generalizing m' with
  | stop h =>
    cases h' with
    | stop h' =>
      rw [h] at h'
      cases h'
      exact ⟨rfl, rfl, rfl⟩
    | again h' _ =>
      rw [h] at h'
      contradiction
  | again h _ ih =>
    cases h' with
    | stop h' =>
      rw [h] at h'
      contradiction
    | again h' hrest =>
      rw [h] at h'
      cases h'
      obtain ⟨rfl, rfl, rfl⟩ := ih hrest
      exact ⟨rfl, rfl, rfl⟩

/-- An addition takes up one of the places that are left, if there is one. -/
theorem room_advance (s : Serial) (hk : 0 < k.value) :
    (s.advance k.value).room k + 1 = max 1 (s.room k) := by
  have hless : (s.advance k.value).room k = (s.width.modulus - s.position - k.value) / k.value := by
    rw [room, advance_width, advance_position, Nat.sub_sub]
  rcases Nat.lt_or_ge (s.width.modulus - s.position) k.value with hlt | hle
  · rw [hless, room, Nat.div_eq_of_lt hlt, Nat.div_eq_of_lt (by omega)]
    rfl
  · rw [hless, room, Nat.div_eq_sub_div hk hle]
    omega

section chained
variable (hw : k.width = s.width) (hk : 0 < k.value) (hmax : k.value ≤ s.width.maxAddend)
include hw hk hmax

theorem add_of_room_eq_zero (hs : s.chain ≠ none) (h : s.room k = 0) :
    s.add k = .error .chainOverflow := by
  have hlt : s.width.modulus - s.position < k.value := (Nat.div_eq_zero_iff_lt hk).1 h
  exact add_of_no_room hs hw.symm hmax (by omega)

theorem add_of_room_ne_zero (h : s.room k ≠ 0) : s.add k = .ok (s.advance k.value) := by
  have hle : k.value ≤ s.width.modulus - s.position :=
    Nat.le_of_not_lt fun hlt => h (Nat.div_eq_of_lt hlt)
  exact add_of_room hw.symm hmax (by omega)

-- By induction on the places that are left. They are one less after each addition.
theorem repeats_room (hs : s.chain ≠ none) : ∃ t, Repeats k s (s.room k) t .chainOverflow := by
  generalize hroom : s.room k = j
  induction j generalizing s with
  | zero => exact ⟨s, .stop (add_of_room_eq_zero hw hk hmax hs hroom)⟩
  | succ j ih =>
    have hadd := add_of_room_ne_zero hw hk hmax (by omega)
    have hless := room_advance s hk
    obtain ⟨t, ht⟩ := ih (s := s.advance k.value) hw hmax (by simp) (by omega)
    exact ⟨t, .again hadd ht⟩

theorem repeats_repetitions : ∃ t, Repeats k s (s.repetitions k) t .chainOverflow := by
  by_cases hs : s.chain = none
  · have hfirst := add_of_chain_none hs hw.symm hmax
    obtain ⟨t, ht⟩ := repeats_room (s := s.advance k.value) hw hk hmax (by simp)
    rw [repetitions, if_pos hs, ← room_advance s hk]
    exact ⟨t, .again hfirst ht⟩
  · rw [repetitions, if_neg hs]
    exact repeats_room hw hk hmax hs

end chained

theorem repetitions_of_chain_none (hs : s.chain = none) :
    s.repetitions k = max 1 ((s.width.modulus - s.value) / k.value) := by
  rw [repetitions, if_pos hs, room, position_of_chain_none hs]

theorem repetitions_of_chain_some (hs : s.chain = some i) :
    s.repetitions k = (s.width.modulus - i) / k.value := by
  rw [repetitions, if_neg (by simp [hs]), room, position_of_chain_some hs]

/-- The loop is a run of additions of the same serial. -/
theorem repeats_iff :
    Repeats k s m t e ↔ s.addAll (List.replicate m k) = .ok t ∧ t.add k = .error e := by
  constructor
  · intro h
    induction h with
    | stop h => exact ⟨rfl, h⟩
    | again h _ ih => exact ⟨Outcome.bind_eq_ok_iff.2 ⟨_, h, ih.1⟩, ih.2⟩
  · rintro ⟨hrun, herror⟩
    induction m generalizing s with
    | zero =>
      cases hrun
      exact .stop herror
    | succ m ih =>
      obtain ⟨r, hr, hrest⟩ := Outcome.bind_eq_ok_iff.1
        (hrun : s.add k >>= (·.addAll (List.replicate m k)) = .ok t)
      exact .again hr (ih hrest)

theorem total_replicate (i : Nat) (k : Serial) : total (List.replicate i k) = i * k.value := by
  simp [total]

theorem value_of_addAll_replicate (h : s.addAll (List.replicate i k) = .ok u) :
    u.value = (s.value + i * k.value) % s.width.modulus := by
  obtain ⟨_, rfl⟩ := addAll_eq_ok_iff.1 h
  rw [after_value, total_replicate]

theorem exists_addAll_replicate (h : s.addAll (List.replicate m k) = .ok t) (hi : i ≤ m) :
    ∃ u, s.addAll (List.replicate i k) = .ok u := by
  have hm : List.replicate m k = List.replicate i k ++ List.replicate (m - i) k := by
    rw [List.replicate_append_replicate, Nat.add_sub_cancel' hi]
  rw [hm, addAll_append] at h
  obtain ⟨u, hu, _⟩ := Outcome.bind_eq_ok_iff.1 h
  exact ⟨u, hu⟩

theorem position_le_of_not_beyond (hs : s.Attainable) (h : ¬ s.Beyond) :
    s.position ≤ s.width.modulus := by
  have hv := s.value_lt
  rcases hs with hc | hc | ⟨hc, _⟩
  · rw [position_of_chain_none hc]
    omega
  · rw [position_of_chain_some hc]
    omega
  · have hzero : s.value = 0 := Decidable.not_not.1 fun hne => h ⟨hne, hc⟩
    rw [position_of_chain_some hc]
    omega

theorem exists_addAll_replicate_zero (hw : k.width = s.width) (hk : k.value = 0)
    (hs : s.position ≤ s.width.modulus) (m : Nat) : ∃ t, s.addAll (List.replicate m k) = .ok t := by
  refine ⟨_, addAll_eq_ok_iff.2 ⟨⟨?_, Or.inr (Or.inr ?_)⟩, rfl⟩⟩
  · intro n hn
    rw [List.eq_of_mem_replicate hn]
    exact ⟨hw.symm, by omega⟩
  · rw [total_replicate, hk, Nat.mul_zero, Nat.add_zero]
    exact hs

/-- A loop that ends has one addition that fails. -/
theorem not_repeats (h : ∀ m, ∃ t, s.addAll (List.replicate m k) = .ok t) :
    ¬ Repeats k s m t e := by
  intro hloop
  obtain ⟨hrun, herror⟩ := repeats_iff.1 hloop
  obtain ⟨r, hr⟩ := h (m + 1)
  rw [List.replicate_succ', addAll_append, hrun] at hr
  have hlast : t.addAll [k] = .ok r := hr
  rw [addAll_cons, herror] at hlast
  contradiction

/-- An amount above zero is added as often as it fits up to the end of the space, from a fresh start
at least once, and beyond the end not at all. Then the loop stops for want of room. Each addition
moves the value on by the amount, modulo the ring. Zero can be added for ever, but beyond the end
not once. -/
theorem repetitions_counted :
    (∀ s k : Serial, k.width = s.width → 1 ≤ k.value → k.value ≤ s.width.maxAddend →
      ∃ m t, Repeats k s m t .chainOverflow ∧
        (∀ m' t' e, Repeats k s m' t' e → m' = m ∧ t' = t ∧ e = .chainOverflow) ∧
        (s.chain = none → m = max 1 ((s.width.modulus - s.value) / k.value)) ∧
        (s.chain = some s.value → m = (s.width.modulus - s.value) / k.value) ∧
        (s.chain = some (s.value + s.width.modulus) → m = 0) ∧
        ∀ i ≤ m, ∃ u, s.addAll (List.replicate i k) = .ok u ∧
          u.value = (s.value + i * k.value) % s.width.modulus) ∧
    (∀ s k : Serial, s.Reachable → k.width = s.width → k.value = 0 →
      (s.Beyond → s.add k = .error .chainOverflow) ∧
      (¬ s.Beyond → (∀ m, ∃ t, s.addAll (List.replicate m k) = .ok t) ∧
        ∀ m t e, ¬ Repeats k s m t e)) := by
  constructor
  · intro s k hw hk hmax
    obtain ⟨t, ht⟩ := repeats_repetitions hw hk hmax
    refine ⟨s.repetitions k, t, ht, ?_, repetitions_of_chain_none, repetitions_of_chain_some,
      ?_, ?_⟩
    · intro m' t' e h'
      exact repeats_unique ht h'
    · intro hs
      rw [repetitions_of_chain_some hs, Nat.sub_eq_zero_of_le (Nat.le_add_left ..), Nat.zero_div]
    · intro i hi
      obtain ⟨u, hu⟩ := exists_addAll_replicate (repeats_iff.1 ht).1 hi
      exact ⟨u, hu, value_of_addAll_replicate hu⟩
  · intro s k hs hw hk
    constructor
    · intro hbeyond
      exact beyond_add hbeyond hw (by omega)
    · intro hbeyond
      have hall := exists_addAll_replicate_zero hw hk
        (position_le_of_not_beyond (reachable_iff.1 hs) hbeyond)
      exact ⟨hall, fun m t e => not_repeats hall⟩

/-- In a space of 8 bits, 100 can be added twice from 0 and once from 200. Then it has led beyond
the end, where not even zero can be added. -/
theorem repetitions_counted_beyond_the_end :
    (∃ t, Repeats (ofInt { bits := 8 } 100) (ofInt { bits := 8 } 0) 2 t .chainOverflow) ∧
    (∃ t, Repeats (ofInt { bits := 8 } 100) (ofInt { bits := 8 } 200) 1 t .chainOverflow) ∧
    ((ofInt { bits := 8 } 200).advance 100).add (ofInt { bits := 8 } 0) = .error .chainOverflow ∧
    ∀ m, ∃ t, ((ofInt { bits := 8 } 200).advance 56).addAll
      (List.replicate m (ofInt { bits := 8 } 0)) = .ok t := by
  obtain ⟨hcount, hzero⟩ := repetitions_counted
  obtain ⟨m, t, ht, _, hm, _⟩ := hcount (ofInt { bits := 8 } 0) (ofInt { bits := 8 } 100) rfl
    (by decide) (by decide)
  obtain ⟨m', t', ht', _, hm', _⟩ := hcount (ofInt { bits := 8 } 200) (ofInt { bits := 8 } 100) rfl
    (by decide) (by decide)
  have hbeyond : ((ofInt { bits := 8 } 200).advance 100).Reachable :=
    reachable_advance (w := { bits := 8 }) (v := 200) (by decide) (by decide)
  have honZero : ((ofInt { bits := 8 } 200).advance 56).Reachable :=
    reachable_advance (w := { bits := 8 }) (v := 200) (by decide) (by decide)
  rw [hm rfl] at ht
  rw [hm' rfl] at ht'
  refine ⟨⟨t, ht⟩, ⟨t', ht'⟩, ?_, ?_⟩
  · exact (hzero _ (ofInt { bits := 8 } 0) hbeyond rfl rfl).1 ⟨by decide, by decide⟩
  · exact ((hzero _ (ofInt { bits := 8 } 0) honZero rfl rfl).2 fun h => h.1 (by decide)).1

end SerialNumber.Serial
