import Mathlib.Data.List.Induction
import Mathlib.Order.Defs.Unbundled
import SerialNumber.Serial.Order

/-! What a scan for the greatest item holds at its end. With no law for what is greater, it is where
an ascent ends that goes from every item to the first later one that is greater. Where the items are
ranked, it is the first that no item is greater than. -/
namespace SerialNumber

variable {α : Type} {gt : α → α → Bool} {held item : Option α}
  {items items' : List (Option α)} {path : List α} {x y m m' : α}

/-- Anything is greater than nothing. -/
def Exceeds (gt : α → α → Bool) (y : α) : Option α → Prop
  | none => True
  | some x => gt y x

instance : Decidable (Exceeds gt y held) :=
  match held with
  | none => .isTrue trivial
  | some x => inferInstanceAs (Decidable (gt y x = true))

/-- The items that are chosen after the one held, if one is: the first later one that is greater,
from there the first later one that is greater still, and so on until there is none. -/
inductive Ascent (gt : α → α → Bool) : Option α → List (Option α) → List α → Prop
  | top {held : Option α} {later : List (Option α)}
      (h : ∀ y, some y ∈ later → ¬ Exceeds gt y held) : Ascent gt held later []
  | up {held : Option α} {before after : List (Option α)} {y : α} {path : List α}
      (hbefore : ∀ z, some z ∈ before → ¬ Exceeds gt z held) (hy : Exceeds gt y held)
      (h : Ascent gt (some y) after path) : Ascent gt held (before ++ some y :: after) (y :: path)

/-- `m` stands in the list, and nothing after that place is greater. -/
def Standing (gt : α → α → Bool) (items : List (Option α)) (m : α) : Prop :=
  ∃ before after, items = before ++ some m :: after ∧ ∀ y, some y ∈ after → ¬ gt y m

def Maximal (gt : α → α → Bool) (items : List (Option α)) (x : α) : Prop :=
  some x ∈ items ∧ ∀ y, some y ∈ items → ¬ gt y x

/-- `m` is maximal, and nothing before its place is. -/
def FirstMaximal (gt : α → α → Bool) (items : List (Option α)) (m : α) : Prop :=
  ∃ before after, items = before ++ some m :: after ∧ Maximal gt items m ∧
    ∀ y, some y ∈ before → ¬ Maximal gt items y

/-- Among these items `gt` compares places in a ranking, which several of them may share. -/
structure Ranks (gt : α → α → Bool) (items : List (Option α)) : Prop where
  asymm : ∀ x y, some x ∈ items → some y ∈ items → gt x y → ¬ gt y x
  cotrans : ∀ x y z, some x ∈ items → some y ∈ items → some z ∈ items →
    gt x z → gt x y ∨ gt y z

namespace greatest

theorem step_of_exceeds (h : Exceeds gt y held) : step gt held (some y) = some y := by
  cases held with
  | none => rfl
  | some x => exact if_pos h

theorem step_of_not_exceeds (h : ¬ Exceeds gt y held) : step gt held (some y) = held := by
  cases held with
  | none => exact (h trivial).elim
  | some x => exact if_neg h

theorem step_none (gt : α → α → Bool) (held : Option α) : step gt held none = held := by
  cases held <;> rfl

theorem foldl_of_not_exceeds (h : ∀ y, some y ∈ items → ¬ Exceeds gt y held) :
    items.foldl (step gt) held = held := by
  induction items with
  | nil => rfl
  | cons item items ih =>
    have hrest := ih (fun y hy => h y (List.mem_cons_of_mem item hy))
    cases item with
    | none => rwa [List.foldl_cons, step_none]
    | some y => rwa [List.foldl_cons, step_of_not_exceeds (h y (List.mem_cons_self ..))]

/-- The scan goes over what the ascent passes by, and ends on the last item that it takes. -/
theorem foldl_of_ascent (h : Ascent gt held items path) :
    items.foldl (step gt) held = path.getLast?.or held := by
  induction h with
  | top h => exact foldl_of_not_exceeds h
  | up hbefore hy _ ih =>
    rw [List.foldl_append, foldl_of_not_exceeds hbefore, List.foldl_cons, step_of_exceeds hy, ih]
    simp [List.getLast?_cons]

/-- What is held after a step is what came in, or what was held and what came in is not greater. -/
theorem step_eq_some_cases (h : step gt held item = some m) :
    item = some m ∧ Exceeds gt m held ∨ held = some m ∧ ∀ y, item = some y → ¬ gt y m := by
  cases item with
  | none =>
    rw [step_none] at h
    exact Or.inr ⟨h, nofun⟩
  | some y =>
    by_cases hy : Exceeds gt y held
    · rw [step_of_exceeds hy] at h
      cases h
      exact Or.inl ⟨rfl, hy⟩
    · rw [step_of_not_exceeds hy] at h
      subst h
      refine Or.inr ⟨rfl, ?_⟩
      rintro _ ⟨⟩
      exact hy

end greatest

theorem ascent_skip_iff (h : ∀ y, item = some y → ¬ Exceeds gt y held) :
    Ascent gt held (item :: items) path ↔ Ascent gt held items path := by
  constructor
  · intro ha
    generalize hlist : item :: items = list at ha
    cases ha with
    | top htop =>
      subst hlist
      exact .top (fun y hy => htop y (List.mem_cons_of_mem item hy))
    | @up _ before after y path hbefore hy hafter =>
      cases before with
      | nil =>
        cases hlist
        exact (h y rfl hy).elim
      | cons item' before =>
        cases hlist
        exact .up (fun z hz => hbefore z (List.mem_cons_of_mem item hz)) hy hafter
  · intro ha
    cases ha with
    | top htop =>
      refine .top ?_
      intro y hy
      rcases List.mem_cons.1 hy with hy | hy
      · exact h y hy.symm
      · exact htop y hy
    | @up _ before after y path hbefore hy hafter =>
      change Ascent gt held ((item :: before) ++ some y :: after) (y :: path)
      refine .up ?_ hy hafter
      intro z hz
      rcases List.mem_cons.1 hz with hz | hz
      · exact h z hz.symm
      · exact hbefore z hz

theorem ascent_take_iff (h : Exceeds gt y held) :
    Ascent gt held (some y :: items) path ↔
      ∃ rest, path = y :: rest ∧ Ascent gt (some y) items rest := by
  constructor
  · intro ha
    generalize hlist : some y :: items = list at ha
    cases ha with
    | top htop =>
      subst hlist
      exact (htop y (List.mem_cons_self ..) h).elim
    | @up _ before after z path hbefore hz hafter =>
      cases before with
      | nil =>
        cases hlist
        exact ⟨path, rfl, hafter⟩
      | cons item before =>
        cases hlist
        exact (hbefore y (List.mem_cons_self ..) h).elim
  · rintro ⟨rest, rfl, hrest⟩
    change Ascent gt held ([] ++ some y :: items) (y :: rest)
    exact .up (by simp) h hrest

theorem ascent_nil_iff : Ascent gt held [] path ↔ path = [] := by
  constructor
  · intro ha
    generalize hlist : [] = list at ha
    cases ha with
    | top _ => rfl
    | up _ _ _ => simp at hlist
  · rintro rfl
    exact .top (by simp)

theorem existsUnique_ascent (gt : α → α → Bool) (held : Option α) (items : List (Option α)) :
    ∃! path, Ascent gt held items path := by
  induction items generalizing held with
  | nil => exact ⟨[], ascent_nil_iff.2 rfl, fun _ h => ascent_nil_iff.1 h⟩
  | cons item items ih =>
    by_cases h : ∀ y, item = some y → ¬ Exceeds gt y held
    · simpa only [ascent_skip_iff h] using ih held
    · obtain ⟨y, rfl, hy⟩ : ∃ y, item = some y ∧ Exceeds gt y held := by
        simpa using h
      obtain ⟨rest, hrest, hunique⟩ := ih (some y)
      refine ⟨y :: rest, (ascent_take_iff hy).2 ⟨rest, rfl, hrest⟩, ?_⟩
      intro path hpath
      obtain ⟨rest', rfl, hrest'⟩ := (ascent_take_iff hy).1 hpath
      rw [hunique rest' hrest']

theorem greatest_append_singleton :
    greatest gt (items ++ [item]) = greatest.step gt (greatest gt items) item := by
  simp [greatest]

theorem greatest_of_ascent (h : Ascent gt none items path) : greatest gt items = path.getLast? := by
  have hfold := greatest.foldl_of_ascent h
  rwa [Option.or_none] at hfold

theorem greatest_eq_none_iff : greatest gt items = none ↔ ∀ x, some x ∉ items := by
  constructor
  · intro hnone
    obtain ⟨path, hpath, _⟩ := existsUnique_ascent gt none items
    rw [greatest_of_ascent hpath, List.getLast?_eq_none_iff] at hnone
    subst hnone
    cases hpath with
    | top h => exact fun x hx => h x hx trivial
  · intro habsent
    exact greatest.foldl_of_not_exceeds (fun x hx => (habsent x hx).elim)

theorem greatest_filter_isSome (gt : α → α → Bool) (items : List (Option α)) :
    greatest gt (items.filter Option.isSome) = greatest gt items := by
  have h : ∀ held, (items.filter Option.isSome).foldl (greatest.step gt) held =
      items.foldl (greatest.step gt) held := by
    intro held
    induction items generalizing held with
    | nil => rfl
    | cons item items ih =>
      cases item with
      | none => simpa [greatest.step_none] using ih held
      | some x => simpa using ih (greatest.step gt held (some x))
  exact h none

/-- A scan can go on from what another one holds. -/
theorem greatest_append (gt : α → α → Bool) (xs ys : List (Option α)) :
    greatest gt (xs ++ ys) = greatest gt (greatest gt xs :: ys) := by
  have hstep : greatest.step gt none (greatest gt xs) = greatest gt xs := by
    cases greatest gt xs <;> rfl
  calc greatest gt (xs ++ ys) = ys.foldl (greatest.step gt) (greatest gt xs) := List.foldl_append
    _ = ys.foldl (greatest.step gt) (greatest.step gt none (greatest gt xs)) := by rw [hstep]
    _ = greatest gt (greatest gt xs :: ys) := rfl

theorem forall_append_singleton_iff {p : α → Prop} :
    (∀ y, some y ∈ items ++ [item] → p y) ↔
      (∀ y, some y ∈ items → p y) ∧ ∀ y, item = some y → p y := by
  constructor
  · intro h
    exact ⟨fun y hy => h y (by simp [hy]), fun y hy => h y (by simp [hy])⟩
  · rintro ⟨hitems, hitem⟩ y hy
    rcases List.mem_append.1 hy with hy | hy
    · exact hitems y hy
    · exact hitem y (List.mem_singleton.1 hy).symm

theorem Standing.append_singleton (h : Standing gt items m) (hnot : ∀ y, item = some y → ¬ gt y m) :
    Standing gt (items ++ [item]) m := by
  obtain ⟨before, after, rfl, hafter⟩ := h
  exact ⟨before, after ++ [item], by simp, forall_append_singleton_iff.2 ⟨hafter, hnot⟩⟩

theorem standing_greatest (h : greatest gt items = some m) : Standing gt items m := by
  induction items using List.reverseRecOn generalizing m with
  | nil => contradiction
  | append_singleton items item ih =>
    rw [greatest_append_singleton] at h
    rcases greatest.step_eq_some_cases h with ⟨rfl, _⟩ | ⟨hheld, hnot⟩
    · exact ⟨items, [], rfl, by simp⟩
    · exact (ih hheld).append_singleton hnot

theorem Ranks.mono (h : Ranks gt items) (hsub : ∀ x, some x ∈ items' → some x ∈ items) :
    Ranks gt items' where
  asymm x y hx hy := h.asymm x y (hsub x hx) (hsub y hy)
  cotrans x y z hx hy hz := h.cotrans x y z (hsub x hx) (hsub y hy) (hsub z hz)

/-- What is greater than a maximal item is greater than all items. -/
theorem Ranks.gt_of_gt_maximal (hr : Ranks gt (items ++ [some m])) (hx : Maximal gt items x)
    (hm : gt m x) (hy : some y ∈ items) : gt m y := by
  have hmem : ∀ {z}, some z ∈ items → some z ∈ items ++ [some m] :=
    fun hz => List.mem_append_left _ hz
  rcases hr.cotrans m y x (by simp) (hmem hy) (hmem hx.1) hm with hmy | hyx
  · exact hmy
  · exact (hx.2 y hy hyx).elim

theorem firstMaximal_append_self (hr : Ranks gt (items ++ [some m]))
    (hall : ∀ y, some y ∈ items → gt m y) : FirstMaximal gt (items ++ [some m]) m := by
  have hm : some m ∈ items ++ [some m] := by simp
  refine ⟨items, [], rfl, ⟨hm, forall_append_singleton_iff.2 ⟨?_, ?_⟩⟩, ?_⟩
  · intro y hy
    exact hr.asymm m y hm (List.mem_append_left _ hy) (hall y hy)
  · rintro _ ⟨⟩ hgt
    exact hr.asymm m m hm hm hgt hgt
  · intro y hy hmax
    exact hmax.2 m hm (hall y hy)

theorem FirstMaximal.append_singleton (h : FirstMaximal gt items m)
    (hnot : ∀ y, item = some y → ¬ gt y m) : FirstMaximal gt (items ++ [item]) m := by
  obtain ⟨before, after, rfl, hmax, hbefore⟩ := h
  refine ⟨before, after ++ [item], by simp, ⟨List.mem_append_left _ hmax.1, ?_⟩, ?_⟩
  · exact forall_append_singleton_iff.2 ⟨hmax.2, hnot⟩
  · intro y hy hmax'
    exact hbefore y hy ⟨List.mem_append_left _ hy, (forall_append_singleton_iff.1 hmax'.2).1⟩

theorem firstMaximal_greatest (hr : Ranks gt items) (h : greatest gt items = some m) :
    FirstMaximal gt items m := by
  induction items using List.reverseRecOn generalizing m with
  | nil => contradiction
  | append_singleton items item ih =>
    have hr' : Ranks gt items := hr.mono (fun x hx => List.mem_append_left _ hx)
    rw [greatest_append_singleton] at h
    rcases greatest.step_eq_some_cases h with ⟨rfl, hexceeds⟩ | ⟨hheld, hnot⟩
    · apply firstMaximal_append_self hr
      intro y hy
      cases hheld : greatest gt items with
      | none => exact (greatest_eq_none_iff.1 hheld y hy).elim
      | some x =>
        obtain ⟨_, _, _, hmax, _⟩ := ih hr' hheld
        rw [hheld] at hexceeds
        exact hr.gt_of_gt_maximal hmax hexceeds hy
    · exact (ih hr' hheld).append_singleton hnot

/-- Of two places the later one would have the other before it. -/
theorem firstMaximal_unique (h : FirstMaximal gt items m) (h' : FirstMaximal gt items m') :
    m = m' := by
  obtain ⟨before, after, rfl, hmax, hbefore⟩ := h
  obtain ⟨before', after', heq, hmax', hbefore'⟩ := h'
  rcases List.append_eq_append_iff.1 heq with ⟨mid, rfl, hmid⟩ | ⟨mid, rfl, hmid⟩
  · cases mid with
    | nil =>
      cases hmid
      rfl
    | cons item mid =>
      cases hmid
      exact (hbefore' m (by simp) hmax).elim
  · cases mid with
    | nil =>
      cases hmid
      rfl
    | cons item mid =>
      cases hmid
      exact (hbefore m' (by simp) hmax').elim

theorem greatest_eq_some_iff (hr : Ranks gt items) :
    greatest gt items = some m ↔ FirstMaximal gt items m := by
  constructor
  · exact firstMaximal_greatest hr
  · intro hm
    have hmem : some m ∈ items := by
      obtain ⟨_, _, _, hmax, _⟩ := hm
      exact hmax.1
    cases h : greatest gt items with
    | none => exact (greatest_eq_none_iff.1 h m hmem).elim
    | some m' => rw [firstMaximal_unique hm (firstMaximal_greatest hr h)]

theorem ranks_of_isStrictTotalOrder (h : IsStrictTotalOrder α (fun x y => gt x y))
    (items : List (Option α)) : Ranks gt items where
  asymm _ _ _ _ hxy := asymm_of (fun x y => gt x y = true) hxy
  cotrans x y z _ _ _ hxz := by
    rcases trichotomous_of (fun x y => gt x y = true) x y with hxy | rfl | hyx
    · exact Or.inl hxy
    · exact Or.inr hxz
    · exact Or.inr (trans_of (fun x y => gt x y = true) hyx hxz)

/-- Whatever it is to be greater, the scan ends where the one ascent through its items ends, and
holds nothing only if nothing is there. What it holds stands in the list with nothing greater after
it, does not depend on absent items, and is all that a later scan needs. If to be greater is a
strict total order, it is the first maximal item. -/
theorem greatest_ends_ascent (gt : α → α → Bool) :
    (∀ items, greatest gt items = none ↔ ∀ x, some x ∉ items) ∧
    (∀ items, ∃ path, (∀ path', Ascent gt none items path' ↔ path' = path) ∧
      greatest gt items = path.getLast?) ∧
    (∀ items m, greatest gt items = some m → Standing gt items m) ∧
    (∀ items, greatest gt (items.filter Option.isSome) = greatest gt items) ∧
    (∀ xs ys, greatest gt (xs ++ ys) = greatest gt (greatest gt xs :: ys)) ∧
    (IsStrictTotalOrder α (fun x y => gt x y) → ∀ items m,
      greatest gt items = some m ↔ FirstMaximal gt items m) := by
  refine ⟨?_, ?_, ?_, greatest_filter_isSome gt, greatest_append gt, ?_⟩
  · intro items
    exact greatest_eq_none_iff
  · intro items
    obtain ⟨path, hpath, hunique⟩ := existsUnique_ascent gt none items
    refine ⟨path, ?_, greatest_of_ascent hpath⟩
    intro path'
    constructor
    · exact hunique path'
    · rintro rfl
      exact hpath
  · intro items m h
    exact standing_greatest h
  · intro h items m
    exact greatest_eq_some_iff (ranks_of_isStrictTotalOrder h items)

/-- Of two sevens among integers it is the first. In a space of 8 bits the ascent from 0 leads by
100 and 200 to 44, although 100 is greater than that. -/
theorem greatest_ends_ascent_below_a_greater_item :
    FirstMaximal (fun x y : Int => decide (y < x)) [none, some 3, some 7, none, some 7, some 5] 7 ∧
    ∃ a b c d : Serial, [a, b, c, d].map Serial.value = [0, 100, 200, 44] ∧
      Ascent (fun x y => (x.compare? y).isGT) none [some a, none, some b, some c, some d]
        [a, b, c, d] ∧
      Serial.greatest? [some a, none, some b, some c, some d] = some d ∧ (b.compare? d).isGT := by
  constructor
  · obtain ⟨_, _, _, _, _, hmaximal⟩ := greatest_ends_ascent (fun x y : Int => decide (y < x))
    have htotal : IsStrictTotalOrder Int (fun x y => decide (y < x)) :=
      { irrefl := by simp
        trans := by simp only [decide_eq_true_eq]; omega
        trichotomous := by simp only [decide_eq_true_eq]; omega }
    exact (hmaximal htotal _ _).1 (by decide)
  · have hclimb : ∀ a b c d : Serial, (b.compare? a).isGT → (c.compare? b).isGT →
        (d.compare? c).isGT → Ascent (fun x y => (x.compare? y).isGT) none
          [some a, none, some b, some c, some d] [a, b, c, d] := by
      intro a b c d hba hcb hdc
      refine (ascent_take_iff (by trivial)).2 ⟨_, rfl, (ascent_skip_iff nofun).2 ?_⟩
      refine (ascent_take_iff (by exact hba)).2 ⟨_, rfl, ?_⟩
      refine (ascent_take_iff (by exact hcb)).2 ⟨_, rfl, ?_⟩
      exact (ascent_take_iff (by exact hdc)).2 ⟨_, rfl, ascent_nil_iff.2 rfl⟩
    have hpath := hclimb (.ofInt { bits := 8 } 0) (.ofInt { bits := 8 } 100)
      (.ofInt { bits := 8 } 200) (.ofInt { bits := 8 } 44) (by decide) (by decide) (by decide)
    obtain ⟨_, hascent, _⟩ := greatest_ends_ascent (fun x y : Serial => (x.compare? y).isGT)
    obtain ⟨path, hunique, hlast⟩ := hascent _
    obtain rfl := (hunique _).1 hpath
    exact ⟨_, _, _, _, rfl, hpath, hlast, by decide⟩

end SerialNumber
