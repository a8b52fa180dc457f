import Mathlib.Algebra.Order.Ring.Nat
import Mathlib.Data.Nat.Find
import SerialNumber.Outcome
import SerialNumber.Serial.Addition

/-! Runs of additions. What a run does is read off its start and its amounts: it stops at the
first amount that is refused, and otherwise moves forward by the total. -/
namespace SerialNumber.Serial
variable {s t n : Serial} {ms ns : List Serial} {e : AddError} {i j k : Nat}

/-- The sum of the amounts, without wrapping around. -/
def total (ns : List Serial) : Nat := (ns.map value).sum

/-- Where a run gets if nothing is refused. -/
def after (s : Serial) (ns : List Serial) : Serial := ns.foldl (fun s n => s.advance n.value) s

/-- Why the addition at place `i` is refused. Only the first addition of a chain may pass the end
of the space. -/
def refusalAt? (s : Serial) (ns : List Serial) (i : Nat) : Option AddError :=
  match ns[i]? with
  | none => none
  | some n =>
    if s.width ≠ n.width then some .widthMismatch
    else if s.width.maxAddend < n.value then some .addendTooLarge
    else if (0 < i ∨ s.chain.isSome) ∧
        s.width.modulus < s.position + total (ns.take (i + 1)) then some .chainOverflow
    else none

/-- What the amounts have to meet for a run to succeed, in whatever order they are added. -/
def Admissible (s : Serial) (ns : List Serial) : Prop :=
  (∀ n ∈ ns, s.width = n.width ∧ n.value ≤ s.width.maxAddend) ∧
    (ns = [] ∨ (s.chain = none ∧ ns.length = 1) ∨ s.position + total ns ≤ s.width.modulus)

@[simp] theorem total_nil : total [] = 0 := rfl

@[simp] theorem total_cons : total (n :: ns) = n.value + total ns := by simp [total]

@[simp] theorem total_append : total (ms ++ ns) = total ms + total ns := by simp [total]

theorem total_take_le (ns : List Serial) (i : Nat) : total (ns.take i) ≤ total ns := by
  have h : total (ns.take i) + total (ns.drop i) = total ns := by
    rw [← total_append, List.take_append_drop]
  omega

theorem advance_advance : (s.advance j).advance k = s.advance (j + k) := by
  refine Serial.ext rfl ?_ ?_
  · simp only [advance_value, advance_width, Nat.mod_add_mod, Nat.add_assoc]
  · simp only [advance_chain, advance_position, Nat.add_assoc]

@[simp] theorem after_nil : s.after [] = s := rfl

theorem after_append : s.after (ms ++ ns) = (s.after ms).after ns := List.foldl_append

/-- The steps of a run add up to one. -/
theorem after_eq_advance (h : ns ≠ []) : s.after ns = s.advance (total ns) := by
  induction ns generalizing s with
  | nil => contradiction
  | cons n ns ih =>
    change (s.advance n.value).after ns = _
    by_cases hns : ns = []
    · simp [hns]
    · rw [ih hns, advance_advance, total_cons]

@[simp] theorem after_width : (s.after ns).width = s.width := by
  by_cases h : ns = []
  · rw [h, after_nil]
  · rw [after_eq_advance h, advance_width]

theorem after_value : (s.after ns).value = (s.value + total ns) % s.width.modulus := by
  by_cases h : ns = []
  · rw [h, after_nil, total_nil, Nat.add_zero, Nat.mod_eq_of_lt s.value_lt]
  · rw [after_eq_advance h, advance_value]

theorem after_position : (s.after ns).position = s.position + total ns := by
  by_cases h : ns = []
  · rw [h, after_nil, total_nil, Nat.add_zero]
  · rw [after_eq_advance h, advance_position]

theorem after_chain (h : ns ≠ []) : (s.after ns).chain = some (s.position + total ns) := by
  rw [after_eq_advance h, advance_chain]

theorem after_chain_eq_none_iff : (s.after ns).chain = none ↔ ns = [] ∧ s.chain = none := by
  by_cases h : ns = []
  · simp [h]
  · simp [h, after_chain h]

theorem take_succ_of_getElem? (h : ns[i]? = some n) : ns.take (i + 1) = ns.take i ++ [n] := by
  rw [List.take_add_one, h, Option.toList_some]

theorem refusalAt?_of_getElem?_eq_none (h : ns[i]? = none) : s.refusalAt? ns i = none := by
  rw [refusalAt?, h]

/-- The run has started a chain unless nothing was added to a serial that had none. -/
theorem after_take_chain_eq_none_iff (h : ns[i]? = some n) :
    (s.after (ns.take i)).chain = none ↔ i = 0 ∧ s.chain = none := by
  have hlen : i < ns.length := (List.getElem?_eq_some_iff.1 h).1
  have hnil : ns.take i = [] ↔ i = 0 := by
    rw [← List.length_eq_zero_iff, List.length_take]
    omega
  rw [after_chain_eq_none_iff, hnil]

/-- The rule at a place is the rule of addition where the run has got to. -/
theorem refusalAt?_eq (h : ns[i]? = some n) :
    s.refusalAt? ns i = (s.after (ns.take i)).refusal? n := by
  have hchain : (s.after (ns.take i)).chain.isSome ↔ 0 < i ∨ s.chain.isSome := by
    have hnone := after_take_chain_eq_none_iff (s := s) h
    rw [Option.isSome_iff_ne_none, Option.isSome_iff_ne_none, ne_eq, hnone]
    cases s.chain <;> simp [Nat.pos_iff_ne_zero]
  have hpos : s.position + total (ns.take (i + 1)) =
      (s.after (ns.take i)).position + n.value := by
    simp [take_succ_of_getElem? h, after_position, Nat.add_assoc]
  simp only [refusalAt?, refusal?, h, after_width, hchain, hpos]

theorem refusalAt?_eq_none_iff (h : ns[i]? = some n) : s.refusalAt? ns i = none ↔
    s.width = n.width ∧ n.value ≤ s.width.maxAddend ∧
      (i = 0 ∧ s.chain = none ∨ s.position + total (ns.take (i + 1)) ≤ s.width.modulus) := by
  rw [refusalAt?_eq h, refusal?_eq_none_iff, after_take_chain_eq_none_iff h]
  simp [after_position, take_succ_of_getElem? h, Nat.add_assoc]

theorem addAll_append : s.addAll (ms ++ ns) = s.addAll ms >>= (·.addAll ns) :=
  List.foldlM_append

theorem addAll_take_succ (h : ns[i]? = some n) :
    s.addAll (ns.take (i + 1)) = s.addAll (ns.take i) >>= (·.add n) := by
  rw [take_succ_of_getElem? h, addAll_append]
  simp [addAll]

/-- A run gets to place `i` if nothing before it is refused. -/
theorem addAll_take_eq_ok_iff : s.addAll (ns.take i) = .ok t ↔
    (∀ j < i, s.refusalAt? ns j = none) ∧ t = s.after (ns.take i) := by
  induction i generalizing t with
  | zero => simp [eq_comm]
  | succ i ih =>
    cases hn : ns[i]? with
    | none =>
      have htake : ns.take (i + 1) = ns.take i := by simp [List.take_add_one, hn]
      simp only [htake, ih, Nat.forall_lt_succ_right, refusalAt?_of_getElem?_eq_none hn, and_true]
    | some n =>
      rw [addAll_take_succ hn, Outcome.bind_eq_ok_iff, take_succ_of_getElem? hn, after_append,
        Nat.forall_lt_succ_right, refusalAt?_eq hn]
      constructor
      · rintro ⟨u, hu, ht⟩
        obtain ⟨hbefore, rfl⟩ := ih.1 hu
        obtain ⟨hn, rfl⟩ := add_eq_ok_iff.1 ht
        exact ⟨⟨hbefore, hn⟩, rfl⟩
      · rintro ⟨⟨hbefore, hn⟩, rfl⟩
        exact ⟨_, ih.2 ⟨hbefore, rfl⟩, add_eq_ok_iff.2 ⟨hn, rfl⟩⟩

theorem addAll_eq_ok_iff_refusalAt? :
    s.addAll ns = .ok t ↔ (∀ i, s.refusalAt? ns i = none) ∧ t = s.after ns := by
  have h : s.addAll (ns.take ns.length) = .ok t ↔
      (∀ j < ns.length, s.refusalAt? ns j = none) ∧ t = s.after (ns.take ns.length) :=
    addAll_take_eq_ok_iff
  rw [List.take_length] at h
  rw [h, and_congr_left_iff]
  intro _
  constructor
  · intro hbefore i
    by_cases hi : i < ns.length
    · exact hbefore i hi
    · exact refusalAt?_of_getElem?_eq_none (List.getElem?_eq_none (Nat.le_of_not_lt hi))
  · intro hall j _
    exact hall j

/-- The totals grow along a run, so that the last one decides about the end of the space. -/
theorem forall_refusalAt?_iff : (∀ i, s.refusalAt? ns i = none) ↔ s.Admissible ns := by
  constructor
  · intro h
    refine ⟨fun n hn => ?_, ?_⟩
    · obtain ⟨i, hi⟩ := List.mem_iff_getElem?.1 hn
      obtain ⟨hw, hmax, _⟩ := (refusalAt?_eq_none_iff hi).1 (h i)
      exact ⟨hw, hmax⟩
    · by_cases hns : ns = []
      · exact Or.inl hns
      · have hlen : 0 < ns.length := List.length_pos_iff.2 hns
        obtain ⟨n, hlast⟩ : ∃ n, ns[ns.length - 1]? = some n :=
          ⟨_, List.getElem?_eq_getElem (by omega)⟩
        obtain ⟨_, _, hend⟩ := (refusalAt?_eq_none_iff hlast).1 (h _)
        rw [Nat.sub_add_cancel hlen, List.take_length] at hend
        rcases hend with ⟨hone, hc⟩ | hend
        · exact Or.inr (Or.inl ⟨hc, by omega⟩)
        · exact Or.inr (Or.inr hend)
  · rintro ⟨hall, hend⟩ i
    cases hn : ns[i]? with
    | none => exact refusalAt?_of_getElem?_eq_none hn
    | some n =>
      have hmem : n ∈ ns := List.mem_of_getElem? hn
      have hlen : i < ns.length := (List.getElem?_eq_some_iff.1 hn).1
      refine (refusalAt?_eq_none_iff hn).2 ⟨(hall n hmem).1, (hall n hmem).2, ?_⟩
      rcases hend with rfl | ⟨hc, hone⟩ | hend
      · contradiction
      · exact Or.inl ⟨by omega, hc⟩
      · have := total_take_le ns (i + 1)
        exact Or.inr (by omega)

theorem addAll_eq_ok_iff : s.addAll ns = .ok t ↔ s.Admissible ns ∧ t = s.after ns := by
  rw [addAll_eq_ok_iff_refusalAt?, forall_refusalAt?_iff]

end SerialNumber.Serial
