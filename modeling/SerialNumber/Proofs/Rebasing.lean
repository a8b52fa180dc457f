import SerialNumber.Proofs.Appearance
import SerialNumber.Proofs.Chain
import SerialNumber.Proofs.Run

/-! Runs that forget their chain on the way. This never tightens the bound on what can be added,
since a chain that additions have left is never behind its value. So a run that forgets takes every
step that the plain run takes, and has the same value after it. -/
namespace SerialNumber.Serial

/-- What a run can do: to add, or to forget the additions so far. -/
inductive Move where
  | add (n : Serial)
  | rebase
  deriving DecidableEq, Repr

variable {a b s t n : Serial} {ms : List Move} {ns : List Serial} {e : AddError} {k : Nat}

def move (s : Serial) : Move → Except AddError Serial
  | .add n => s.add n
  | .rebase => .ok s.rebased

/-- Makes one move after the other, up to the first that is refused. -/
def moveAll (s : Serial) (ms : List Move) : Except AddError Serial := ms.foldlM move s

def Move.addend? : Move → Option Serial
  | add n => some n
  | rebase => none

/-- The run without the places where it forgets. -/
def addends (ms : List Move) : List Serial := ms.filterMap Move.addend?

/-- The run that forgets before every addition. -/
def rebasingEach (ns : List Serial) : List Move := ns.flatMap fun n => [.rebase, .add n]

/-- `a` is the same number as `b`, and has room for whatever `b` has room for. -/
structure Freer (a b : Serial) : Prop where
  same : a ≈ b
  room : a.chain = none ∨ b.chain ≠ none ∧ a.position ≤ b.position

theorem moveAll_append {ms' : List Move} :
    s.moveAll (ms ++ ms') = s.moveAll ms >>= (·.moveAll ms') := List.foldlM_append

theorem moveAll_rebasingEach_cons : s.moveAll (rebasingEach (n :: ns)) =
    s.rebased.add n >>= (·.moveAll (rebasingEach ns)) := rfl

theorem addends_append {ms' : List Move} : addends (ms ++ ms') = addends ms ++ addends ms' :=
  List.filterMap_append

theorem addAll_addends_add :
    s.addAll (addends (.add n :: ms)) = s.add n >>= (·.addAll (addends ms)) := rfl

theorem addAll_addends_take (h : s.addAll (addends ms) = .ok t) (k : Nat) :
    ∃ v, s.addAll (addends (ms.take k)) = .ok v := by
  rw [← List.take_append_drop k ms, addends_append, addAll_append] at h
  obtain ⟨v, hv, _⟩ := Outcome.bind_eq_ok_iff.1 h
  exact ⟨v, hv⟩

theorem freer_refl (s : Serial) : Freer s s := by
  refine ⟨Setoid.refl s, ?_⟩
  cases hc : s.chain with
  | none => exact Or.inl rfl
  | some k => exact Or.inr ⟨by simp, Nat.le_refl _⟩

theorem freer_rebased (h : Freer a b) : Freer a.rebased b :=
  ⟨Setoid.trans rebased_equiv h.same, Or.inl rfl⟩

theorem value_le_position (hs : s.Attainable) : s.value ≤ s.position := by
  rcases position_of_attainable hs with hpos | ⟨_, hpos, _⟩ <;> omega

/-- Where the chain has been forgotten, the value takes its place, which is not ahead of it. -/
theorem position_le_of_freer (h : Freer a b) (hb : b.Attainable) : a.position ≤ b.position := by
  rcases h.room with hnone | ⟨_, hle⟩
  · have hv := (equiv_iff.1 h.same).2
    have hle := value_le_position hb
    have hpos := position_of_chain_none hnone
    omega
  · exact hle

theorem freer_add (h : Freer a b) (hb : b.Attainable) (hadd : b.add n = .ok t) :
    ∃ u, a.add n = .ok u ∧ Freer u t := by
  obtain ⟨hw, _⟩ := equiv_iff.1 h.same
  obtain ⟨hn, rfl⟩ := add_eq_ok_iff.1 hadd
  obtain ⟨hwidth, hmax, hend⟩ := refusal?_eq_none_iff.1 hn
  have hle := position_le_of_freer h hb
  have hfree : a.refusal? n = none := by
    refine refusal?_eq_none_iff.2 ⟨hw.trans hwidth, hw ▸ hmax, ?_⟩
    rcases h.room with hnone | ⟨hchain, _⟩
    · exact Or.inl hnone
    · have hroom := hend.resolve_left hchain
      rw [hw]
      exact Or.inr (by omega)
  have ha : a.add n = .ok (a.advance n.value) := add_eq_ok_iff.2 ⟨hfree, rfl⟩
  refine ⟨_, ha, (agree_add h.same n).sum _ _ ha hadd, Or.inr ⟨by simp, ?_⟩⟩
  simp only [advance_position]
  omega

/-- What the plain run does, the run that forgets does as well. -/
theorem exists_moveAll (h : Freer a s) (hs : s.Attainable) (hrun : s.addAll (addends ms) = .ok t) :
    ∃ u, a.moveAll ms = .ok u ∧ Freer u t := by
  induction ms generalizing a s with
  | nil =>
    cases hrun
    exact ⟨a, rfl, h⟩
  | cons m ms ih =>
    cases m with
    | rebase => exact ih (freer_rebased h) hs hrun
    | add n =>
      obtain ⟨s', hs', hrest⟩ := Outcome.bind_eq_ok_iff.1 (addAll_addends_add.symm.trans hrun)
      obtain ⟨a', ha', hfree⟩ := freer_add h hs hs'
      obtain ⟨u, hu, hut⟩ := ih hfree (attainable_add hs hs') hrest
      exact ⟨u, Outcome.bind_eq_ok_iff.2 ⟨a', ha', hu⟩, hut⟩

/-- A run that forgets is refused for the reason that the plain run is, unless it has got room. -/
theorem add_error_or_room (h : Freer a b) (hadd : b.add n = .error e) :
    a.add n = .error e ∨ e = .chainOverflow ∧ ∃ t, a.add n = .ok t := by
  have hagree := agree_add h.same n
  by_cases he : e = .chainOverflow
  · subst he
    cases ha : a.add n with
    | ok t => exact Or.inr ⟨rfl, t, rfl⟩
    | error e' =>
      -- Any other reason would have been there without forgetting as well.
      left
      by_contra hne
      have hb := (hagree.refusal e' (fun he => hne (by rw [he]))).1 ha
      rw [hadd] at hb
      cases hb
      exact hne rfl
  · exact Or.inl ((hagree.refusal e he).2 hadd)

theorem exists_moveAll_rebasingEach
    (hns : ∀ n ∈ ns, n.width = s.width ∧ n.value ≤ s.width.maxAddend) :
    ∃ t, s.moveAll (rebasingEach ns) = .ok t ∧ t.width = s.width ∧
      t.value = (s.value + total ns) % s.width.modulus := by
  induction ns generalizing s with
  | nil => exact ⟨s, rfl, rfl, by simp [Nat.mod_eq_of_lt s.value_lt]⟩
  | cons n ns ih =>
    obtain ⟨hw, hmax⟩ := hns n (List.mem_cons_self ..)
    have hstep : s.rebased.add n = .ok (s.rebased.advance n.value) :=
      add_of_chain_none rfl hw.symm hmax
    obtain ⟨t, ht, htw, htv⟩ := ih (s := s.rebased.advance n.value)
      (fun m hm => hns m (List.mem_cons_of_mem n hm))
    refine ⟨t, ?_, htw, ?_⟩
    · rw [moveAll_rebasingEach_cons, hstep]
      exact ht
    · simp only [htv, advance_value, advance_width, rebased_width, rebased_value, total_cons,
        Nat.mod_add_mod, Nat.add_assoc]

/-- The run that forgets before every addition is addition modulo the ring, and never fails. To
forget on the way, wherever and however often, leaves every success a success and every value as it
is. Of the refusals it can only lift those of chains that have no room. -/
theorem rebasing_refines_addition :
    (∀ (s : Serial) (ns : List Serial),
      (∀ n ∈ ns, n.width = s.width ∧ n.value ≤ s.width.maxAddend) →
      ∃ t, s.moveAll (rebasingEach ns) = .ok t ∧ t.width = s.width ∧
        t.value = (s.value + total ns) % s.width.modulus) ∧
    (∀ (s t : Serial) (ms : List Move), s.Reachable → s.addAll (addends ms) = .ok t →
      ∀ k, ∃ u v, s.moveAll (ms.take k) = .ok u ∧ s.addAll (addends (ms.take k)) = .ok v ∧ u ≈ v) ∧
    (∀ (s v n : Serial) (before after : List Move) (e : AddError), s.Reachable →
      s.addAll (addends before) = .ok v → v.add n = .error e →
      ∃ u, s.moveAll before = .ok u ∧ u ≈ v ∧
        (s.moveAll (before ++ .add n :: after) = .error e ∨
          e = .chainOverflow ∧ ∃ t, u.add n = .ok t)) := by
  refine ⟨fun s ns h => exists_moveAll_rebasingEach h, ?_, ?_⟩
  · intro s t ms hs hrun k
    obtain ⟨v, hv⟩ := addAll_addends_take hrun k
    obtain ⟨u, hu, huv⟩ := exists_moveAll (freer_refl s) (reachable_iff.1 hs) hv
    exact ⟨u, v, hu, hv, huv.same⟩
  · intro s v n before after e hs hv he
    obtain ⟨u, hu, huv⟩ := exists_moveAll (freer_refl s) (reachable_iff.1 hs) hv
    refine ⟨u, hu, huv.same, ?_⟩
    rcases add_error_or_room huv he with herror | hroom
    · left
      rw [moveAll_append, hu, Outcome.bind_eq_error_iff]
      exact Or.inr ⟨u, rfl, Outcome.bind_eq_error_iff.2 (Or.inl herror)⟩
    · exact Or.inr hroom

/-- In a space of 8 bits, `100 + 100 + 100` is 44 if the chain is forgotten every time, and
`100 + 100 + 56` is zero whether it is forgotten or not. A width that does not match is refused all
the same. -/
theorem rebasing_refines_addition_past_the_end :
    (∃ t, (ofInt { bits := 8 } 100).moveAll
        (rebasingEach [ofInt { bits := 8 } 100, ofInt { bits := 8 } 100]) = .ok t ∧ t.value = 44) ∧
    (∃ u v, (ofInt { bits := 8 } 100).moveAll [.add (ofInt { bits := 8 } 100), .rebase,
        .add (ofInt { bits := 8 } 56)] = .ok u ∧
      (ofInt { bits := 8 } 100).addAll [ofInt { bits := 8 } 100, ofInt { bits := 8 } 56] = .ok v ∧
      u ≈ v ∧ v.value = 0) ∧
    (ofInt { bits := 8 } 100).moveAll [.add (ofInt { bits := 8 } 100), .rebase,
      .add (ofInt .standard 1)] = .error .widthMismatch := by
  obtain ⟨heach, hplaces, hrefused⟩ := rebasing_refines_addition
  have hs : (ofInt { bits := 8 } 100).Reachable := reachable_ofInt (by decide)
  have hrun : (ofInt { bits := 8 } 100).addAll (addends [.add (ofInt { bits := 8 } 100), .rebase,
      .add (ofInt { bits := 8 } 56)]) = .ok _ := rfl
  refine ⟨?_, ?_, ?_⟩
  · obtain ⟨t, ht, _, hv⟩ := heach (ofInt { bits := 8 } 100)
      [ofInt { bits := 8 } 100, ofInt { bits := 8 } 100] (by decide)
    exact ⟨t, ht, hv⟩
  · obtain ⟨u, v, hu, hv, huv⟩ := hplaces _ _ _ hs hrun 3
    cases hv
    exact ⟨u, _, hu, rfl, huv, rfl⟩
  · obtain ⟨u, _, _, herror | ⟨hoverflow, _⟩⟩ := hrefused _ _ (ofInt .standard 1)
      [.add (ofInt { bits := 8 } 100), .rebase] [] .widthMismatch hs rfl rfl
    · exact herror
    · contradiction

end SerialNumber.Serial
