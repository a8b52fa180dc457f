/-! The greatest of a list of optional items. -/

namespace SerialNumber

/-- Scans from the front and takes an item over the one held only if it is greater. No law of `gt`
is assumed. -/
def greatest {α : Type} (gt : α → α → Bool) (items : List (Option α)) : Option α :=
  items.foldl step none
where
  step : Option α → Option α → Option α
    | held, none => held
    | none, some x => some x
    | some y, some x => if gt x y then some x else some y

namespace greatest
variable {α : Type} {gt : α → α → Bool} {items : List (Option α)} {held item : Option α} {x : α}

theorem step_eq_some (h : step gt held item = some x) : held = some x ∨ item = some x := by
  rcases held with _ | y <;> rcases item with _ | z <;> simp only [step] at h
  · contradiction
  · exact .inr h
  · exact .inl h
  · split at h
    · exact .inr h
    · exact .inl h

theorem mem_foldl (h : items.foldl (step gt) held = some x) : held = some x ∨ some x ∈ items := by
  induction items generalizing held with
  | nil => exact .inl h
  | cons item items ih =>
    rcases ih h with hstep | hmem
    · rcases step_eq_some hstep with hheld | rfl
      · exact .inl hheld
      · exact .inr (List.mem_cons_self ..)
    · exact .inr (List.mem_cons_of_mem _ hmem)

end greatest

theorem mem_of_greatest {α : Type} {gt : α → α → Bool} {items : List (Option α)} {x : α}
    (h : greatest gt items = some x) : some x ∈ items := by
  rcases greatest.mem_foldl h with hnone | hmem
  · contradiction
  · exact hmem

end SerialNumber
