import SerialNumber.DateSerial
import SerialNumber.Proofs.Arc
import SerialNumber.Proofs.Greatest

/-! The greatest of serials and dates. Within half a ring it is a true maximum, the first of its
value. Among serials of several widths, only those as wide as the first can be held. -/
namespace SerialNumber

section arc
variable {α : Type} {u : α → Serial} {items items' : List (Option α)} {w : Width} {p : Int}
  {m m' : α}

/-- Whether the serial number under `a` is greater than that under `b`. -/
def isAbove (u : α → Serial) (a b : α) : Bool := ((u a).compare? (u b)).isGT

/-- By the serial numbers under them, `m` is the greatest of the items, the first that is the same
number, and the furthest along the arc from `p`. -/
structure IsTop (u : α → Serial) (w : Width) (p : Int) (items : List (Option α)) (m : α) :
    Prop where
  ge : ∀ a, some a ∈ items → ((u m).compare? (u a)).isGE
  first : ∃ before after, items = before ++ some m :: after ∧
    ∀ a, some a ∈ before → ¬ u a ≈ u m
  furthest : ∃ k, (u m).OnArc w p k ∧ ∀ a j, some a ∈ items → (u a).OnArc w p j → j ≤ k

theorem ranks_of_onArc (h : ∀ a, some a ∈ items → ∃ k, (u a).OnArc w p k) :
    Ranks (isAbove u) items := by
  constructor
  · intro a b ha hb
    obtain ⟨i, hi⟩ := h a ha
    obtain ⟨j, hj⟩ := h b hb
    simp only [isAbove, Serial.isGT_onArc_iff hi hj, Serial.isGT_onArc_iff hj hi]
    omega
  · intro a b c ha hb hc
    obtain ⟨i, hi⟩ := h a ha
    obtain ⟨j, hj⟩ := h b hb
    obtain ⟨k, hk⟩ := h c hc
    simp only [isAbove, Serial.isGT_onArc_iff hi hk, Serial.isGT_onArc_iff hi hj,
      Serial.isGT_onArc_iff hj hk]
    omega

theorem isTop_greatest (harc : ∀ a, some a ∈ items → ∃ k, (u a).OnArc w p k)
    (h : greatest (isAbove u) items = some m) : IsTop u w p items m := by
  obtain ⟨before, after, hitems, ⟨hmem, hmax⟩, hbefore⟩ :=
    firstMaximal_greatest (ranks_of_onArc harc) h
  obtain ⟨k, hk⟩ := harc m hmem
  have hle : ∀ a j, some a ∈ items → (u a).OnArc w p j → j ≤ k := by
    intro a j ha hj
    have hnot := hmax a ha
    rw [isAbove, Serial.isGT_onArc_iff hj hk] at hnot
    omega
  refine ⟨?_, ⟨before, after, hitems, ?_⟩, k, hk, hle⟩
  · intro a ha
    obtain ⟨j, hj⟩ := harc a ha
    exact (Serial.isGE_onArc_iff hk hj).2 (hle a j ha hj)
  · -- What is the same number as a maximal item is maximal as well.
    intro a ha hsame
    have ha' : some a ∈ items := by simp [hitems, ha]
    obtain ⟨j, hj⟩ := harc a ha'
    have hjk := (Serial.equiv_onArc_iff hj hk).1 hsame
    refine hbefore a ha ⟨ha', ?_⟩
    intro b hb
    obtain ⟨i, hi⟩ := harc b hb
    have hik := hle b i hb hi
    rw [isAbove, Serial.isGT_onArc_iff hi hj]
    omega

theorem IsTop.mem (h : IsTop u w p items m) : some m ∈ items := by
  obtain ⟨before, after, hitems, _⟩ := h.first
  simp [hitems]

theorem isTop_equiv (hsame : ∀ a, some a ∈ items' ↔ some a ∈ items) (h : IsTop u w p items m)
    (h' : IsTop u w p items' m') : u m' ≈ u m := by
  obtain ⟨k, hk, hle⟩ := h.furthest
  obtain ⟨k', hk', hle'⟩ := h'.furthest
  have hkk' := hle m' k' ((hsame m').1 h'.mem) hk'
  have hk'k := hle' m k ((hsame m).2 h.mem) hk
  exact (Serial.equiv_onArc_iff hk' hk).2 (by omega)

theorem exists_isTop (harc : ∀ a, some a ∈ items → ∃ k, (u a).OnArc w p k)
    (hex : ∃ a, some a ∈ items) :
    ∃ m, greatest (isAbove u) items = some m ∧ IsTop u w p items m := by
  obtain ⟨a, ha⟩ := hex
  cases h : greatest (isAbove u) items with
  | none => exact (greatest_eq_none_iff.1 h a ha).elim
  | some m => exact ⟨m, rfl, isTop_greatest harc h⟩

/-- Order, repetition and absent items make no difference to the number. -/
theorem rel_greatest (harc : ∀ a, some a ∈ items → ∃ k, (u a).OnArc w p k)
    (hsame : ∀ a, some a ∈ items' ↔ some a ∈ items) :
    Option.Rel (fun a b => u a ≈ u b) (greatest (isAbove u) items')
      (greatest (isAbove u) items) := by
  have harc' : ∀ a, some a ∈ items' → ∃ k, (u a).OnArc w p k :=
    fun a ha => harc a ((hsame a).1 ha)
  cases h' : greatest (isAbove u) items' with
  | none =>
    have habsent : greatest (isAbove u) items = none :=
      greatest_eq_none_iff.2 (fun a ha => greatest_eq_none_iff.1 h' a ((hsame a).2 ha))
    rw [habsent]
    exact .none
  | some m' =>
    have htop' := isTop_greatest harc' h'
    obtain ⟨m, hm, htop⟩ := exists_isTop harc ⟨m', (hsame m').1 htop'.mem⟩
    rw [hm]
    exact .some (isTop_equiv hsame htop htop')

end arc

/-- Serials or dates on an arc of less than half the ring, wherever it lies, have a true maximum. It
is at least as great as each of them, stands first among those of its value, and lies furthest along
the arc. Which number it is depends only on the serials that are there, not on their order, and not
on how often they or absent items occur. -/
theorem greatest?_on_arc :
    (∀ (w : Width) (p : Int) (items : List (Option Serial)),
      (∀ a, some a ∈ items → ∃ k, a.OnArc w p k) →
      ((∃ a, some a ∈ items) →
        ∃ m, Serial.greatest? items = some m ∧ IsTop id w p items m) ∧
      ∀ items', (∀ a, some a ∈ items' ↔ some a ∈ items) →
        Option.Rel (· ≈ ·) (Serial.greatest? items') (Serial.greatest? items)) ∧
    (∀ (p : Int) (items : List (Option DateSerial)),
      (∀ d, some d ∈ items → ∃ k, d.serial.OnArc .standard p k) →
      ((∃ d, some d ∈ items) →
        ∃ m, DateSerial.greatest? items = some m ∧ IsTop DateSerial.serial .standard p items m) ∧
      ∀ items', (∀ d, some d ∈ items' ↔ some d ∈ items) →
        Option.Rel (· ≈ ·) (DateSerial.greatest? items') (DateSerial.greatest? items)) := by
  constructor
  · intro w p items harc
    exact ⟨fun h => exists_isTop (u := id) harc h,
      fun items' hsame => rel_greatest (u := id) harc hsame⟩
  · intro p items harc
    exact ⟨fun h => exists_isTop harc h, fun items' hsame => rel_greatest harc hsame⟩

/-- From 250 round to 4 in a space of 8 bits, where the first of two fours has a chain, and two
dates around the turn of early 2106 in either order. -/
theorem greatest?_on_arc_past_the_end :
    (∃ m, Serial.greatest? [some (.ofInt { bits := 8 } 250), none,
        some ((Serial.ofInt { bits := 8 } 255).advance 5), some (.ofInt { bits := 8 } 4)] = some m ∧
      IsTop id { bits := 8 } 250 [some (.ofInt { bits := 8 } 250), none,
        some ((Serial.ofInt { bits := 8 } 255).advance 5), some (.ofInt { bits := 8 } 4)] m ∧
      m.value = 4 ∧ m.chain = some 260) ∧
    Option.Rel (· ≈ ·)
      (DateSerial.greatest? [some (.ofSeconds 4294967290), some (.ofSeconds 4294967300), none])
      (DateSerial.greatest? [some (.ofSeconds 4294967300), some (.ofSeconds 4294967290)]) := by
  obtain ⟨hserials, hdates⟩ := greatest?_on_arc
  constructor
  · have harc : ∀ a, some a ∈ [some (Serial.ofInt { bits := 8 } 250), none,
        some ((Serial.ofInt { bits := 8 } 255).advance 5), some (.ofInt { bits := 8 } 4)] →
        ∃ k, a.OnArc { bits := 8 } 250 k := by
      intro a ha
      simp only [List.mem_cons, Option.some.injEq, reduceCtorEq, List.not_mem_nil, or_false,
        false_or] at ha
      rcases ha with rfl | rfl | rfl
      · exact ⟨0, rfl, rfl, by decide⟩
      · exact ⟨10, rfl, rfl, by decide⟩
      · exact ⟨10, rfl, rfl, by decide⟩
    obtain ⟨m, hm, htop⟩ := (hserials _ _ _ harc).1 ⟨_, List.mem_cons_self ..⟩
    obtain rfl := Option.some.inj hm
    exact ⟨_, rfl, htop, rfl, rfl⟩
  · have harc : ∀ d, some d ∈ [some (DateSerial.ofSeconds 4294967300),
        some (.ofSeconds 4294967290)] → ∃ k, d.serial.OnArc .standard 4294967290 k := by
      intro d hd
      simp only [List.mem_cons, Option.some.injEq, List.not_mem_nil, or_false] at hd
      rcases hd with rfl | rfl
      · exact ⟨10, rfl, rfl, by decide⟩
      · exact ⟨0, rfl, rfl, by decide⟩
    refine (hdates _ _ harc).2 _ ?_
    intro d
    simp [or_comm]

namespace Serial
variable {items xs ys : List (Option Serial)} {item : Option Serial} {m x z : Serial} {w : Width}

/-- The item, unless it is of another width. -/
def keepWidth (w : Width) (item : Option Serial) : Option Serial := item.filter (·.width = w)

theorem keepWidth_of_eq (h : x.width = w) : keepWidth w (some x) = some x := by
  simp [keepWidth, Option.filter_some, h]

theorem keepWidth_of_ne (h : x.width ≠ w) : keepWidth w (some x) = none := by
  simp [keepWidth, Option.filter_some, h]

theorem not_exceeds_of_width_ne (h : x.width ≠ m.width) : ¬ Exceeds (isAbove id) x (some m) := by
  simp [Exceeds, isAbove, compare?_of_width_ne h, Comparison.isGT]

theorem step_keepWidth (hm : m.width = w) : greatest.step (isAbove id) (some m) (keepWidth w item) =
    greatest.step (isAbove id) (some m) item := by
  cases item with
  | none => rfl
  | some x =>
    by_cases hx : x.width = w
    · rw [keepWidth_of_eq hx]
    · have hne : ¬ Exceeds (isAbove id) x (some m) := not_exceeds_of_width_ne (by rwa [hm])
      rw [keepWidth_of_ne hx, greatest.step_none, greatest.step_of_not_exceeds hne]

theorem width_step (item : Option Serial) (hm : m.width = w) :
    ∃ m', greatest.step (isAbove id) (some m) item = some m' ∧ m'.width = w := by
  cases item with
  | none => exact ⟨m, greatest.step_none .., hm⟩
  | some x =>
    by_cases h : Exceeds (isAbove id) x (some m)
    · refine ⟨x, greatest.step_of_exceeds h, ?_⟩
      by_contra hx
      exact not_exceeds_of_width_ne (by rwa [hm]) h
    · exact ⟨m, greatest.step_of_not_exceeds h, hm⟩

/-- Once a serial is held, the scan goes as if there were no other widths. -/
theorem foldl_keepWidth (hm : m.width = w) : ∃ m',
    items.foldl (greatest.step (isAbove id)) (some m) = some m' ∧ m'.width = w ∧
      (items.map (keepWidth w)).foldl (greatest.step (isAbove id)) (some m) = some m' := by
  induction items generalizing m with
  | nil => exact ⟨m, rfl, hm, rfl⟩
  | cons item items ih =>
    obtain ⟨m', hstep, hm'⟩ := width_step item hm
    rw [List.map_cons, List.foldl_cons, List.foldl_cons, step_keepWidth hm, hstep]
    exact ih hm'

theorem greatest?_keepWidth (h : items.findSome? id = some x) :
    ∃ m, greatest? items = some m ∧ m.width = x.width ∧
      greatest? (items.map (keepWidth x.width)) = some m := by
  induction items with
  | nil => contradiction
  | cons item items ih =>
    cases item with
    | none => exact ih h
    | some y =>
      cases h
      rw [List.map_cons, keepWidth_of_eq rfl]
      exact foldl_keepWidth rfl

theorem greatest?_insert_of_width_ne (h : xs.findSome? id = some x) (hz : z.width ≠ x.width) :
    greatest? (xs ++ some z :: ys) = greatest? (xs ++ ys) := by
  obtain ⟨m, hm, hw, _⟩ := greatest?_keepWidth h
  have hne : ¬ Exceeds (isAbove id) z (some m) := not_exceeds_of_width_ne (by rwa [hw])
  calc greatest? (xs ++ some z :: ys)
      = ys.foldl (greatest.step (isAbove id))
          (greatest.step (isAbove id) (greatest? xs) (some z)) := List.foldl_append
    _ = ys.foldl (greatest.step (isAbove id)) (greatest? xs) := by
        rw [hm, greatest.step_of_not_exceeds hne]
    _ = greatest? (xs ++ ys) := List.foldl_append.symm

/-- The greatest of serials of several widths is as wide as the first of them, and is found as if
all of other widths were absent. Wherever one of another width stands behind the first, it makes no
difference. -/
theorem greatest?_of_mixed_widths :
    (∀ items : List (Option Serial), (∃ y, some y ∈ items) → ∃ x m,
      items.findSome? id = some x ∧ greatest? items = some m ∧ m.width = x.width ∧
        greatest? (items.map (keepWidth x.width)) = some m) ∧
    (∀ (xs ys : List (Option Serial)) (x z : Serial), xs.findSome? id = some x →
      z.width ≠ x.width → greatest? (xs ++ some z :: ys) = greatest? (xs ++ ys)) := by
  constructor
  · rintro items ⟨y, hy⟩
    have hsome : (items.findSome? id).isSome := List.findSome?_isSome_iff.2 ⟨some y, hy, rfl⟩
    obtain ⟨x, hx⟩ := Option.isSome_iff_exists.1 hsome
    obtain ⟨m, hm⟩ := greatest?_keepWidth hx
    exact ⟨x, m, hx, hm⟩
  · intro xs ys x z hx hz
    exact greatest?_insert_of_width_ne hx hz

/-- Where 8 bits come first, 4 is greater than 250, and neither 60000 nor 300 of 16 bits takes the
place of what is held. -/
theorem greatest?_of_mixed_widths_from_eight_bits :
    greatest? [none, some (ofInt { bits := 8 } 250), some (ofInt { bits := 16 } 60000),
        some (ofInt { bits := 8 } 4)] = some (ofInt { bits := 8 } 4) ∧
    greatest? [some (ofInt { bits := 8 } 4), some (ofInt { bits := 16 } 300)] =
      greatest? [some (ofInt { bits := 8 } 4)] := by
  obtain ⟨hmixed, hinsert⟩ := greatest?_of_mixed_widths
  constructor
  · obtain ⟨x, m, hx, hm, _, hkept⟩ := hmixed [none, some (ofInt { bits := 8 } 250),
      some (ofInt { bits := 16 } 60000), some (ofInt { bits := 8 } 4)]
      ⟨ofInt { bits := 8 } 250, by simp⟩
    obtain rfl := Option.some.inj hx
    have hgreatest : greatest? [none, some (ofInt { bits := 8 } 250), none,
        some (ofInt { bits := 8 } 4)] = some (ofInt { bits := 8 } 4) := by decide
    exact hm.trans (hkept.symm.trans hgreatest)
  · exact hinsert [some (ofInt { bits := 8 } 4)] [] _ (ofInt { bits := 16 } 300) rfl (by decide)

end Serial
end SerialNumber
