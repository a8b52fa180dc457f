import Mathlib.Data.List.Forall2
import SerialNumber.DateSerial
import SerialNumber.Proofs.Distance

/-! Sorting in the canonical order. It is a total order of the numbers that serials and dates are,
so that a stable sort has one outcome. Of two serials less than half the ring apart it puts first
the one that is less, and of two that are further apart the one that is greater. -/
namespace SerialNumber

section alike
variable {α : Type} [Setoid α] [∀ x y : α, Decidable (x ≈ y)] {xs ys : List α} {x y : α}

end alike

namespace CanonicalOrder
variable {α : Type} [CanonicalOrder α] {a b : α}

theorem lt_iff : lt a b ↔ canonical a b = .lt := Ordering.isLT_iff_eq_lt

theorem le_iff : le a b ↔ canonical a b = .lt ∨ canonical a b = .eq :=
  Ordering.isLE_iff_eq_lt_or_eq_eq

theorem gt_iff : gt a b ↔ canonical a b = .gt := Ordering.isGT_iff_eq_gt

theorem ge_iff : ge a b ↔ canonical a b = .gt ∨ canonical a b = .eq :=
  Ordering.isGE_iff_eq_gt_or_eq_eq

theorem sort_perm (xs : List α) : (sort xs).Perm xs := List.mergeSort_perm xs le

/-- The order is total, it takes for equal what is the same, and its tests answer by it. -/
structure IsSortOrder (α : Type) [CanonicalOrder α] [Setoid α] : Prop where
  refl (a : α) : canonical a a = .eq
  antisymm (a b : α) : le a b → le b a → a ≈ b
  le_trans (a b c : α) : le a b → le b c → le a c
  lt_trans (a b c : α) : lt a b → lt b c → lt a c
  total (a b : α) : le a b ∨ le b a
  eq_iff (a b : α) : canonical a b = .eq ↔ a ≈ b
  swap (a b : α) : canonical b a = (canonical a b).swap
  lt_iff (a b : α) : lt a b ↔ canonical a b = .lt
  le_iff (a b : α) : le a b ↔ canonical a b = .lt ∨ canonical a b = .eq
  gt_iff (a b : α) : gt a b ↔ canonical a b = .gt
  ge_iff (a b : α) : ge a b ↔ canonical a b = .gt ∨ canonical a b = .eq

section
variable [Setoid α] {xs ys : List α} {x y : α}

theorem isSortOrder_of_transCmp [Std.TransCmp (canonical : α → α → Ordering)]
    (heq : ∀ a b : α, canonical a b = .eq ↔ a ≈ b) : IsSortOrder α := by
  have hswap : ∀ a b : α, canonical b a = (canonical a b).swap :=
    fun _ _ => Std.OrientedCmp.eq_swap
  constructor
  · intro a
    exact Std.ReflCmp.compare_self
  · intro a b hab hba
    exact (heq a b).1 (Std.OrientedCmp.isLE_antisymm hab hba)
  · intro a b c hab hbc
    exact Std.TransCmp.isLE_trans hab hbc
  · intro a b c hab hbc
    exact lt_iff.2 (Std.TransCmp.lt_trans (lt_iff.1 hab) (lt_iff.1 hbc))
  · intro a b
    rw [le_iff, le_iff, hswap a b]
    cases canonical a b <;> simp
  · exact heq
  · exact hswap
  · exact fun _ _ => lt_iff
  · exact fun _ _ => le_iff
  · exact fun _ _ => gt_iff
  · exact fun _ _ => ge_iff

theorem IsSortOrder.le_or_le (h : IsSortOrder α) (a b : α) : le a b || le b a := by
  rw [Bool.or_eq_true]
  exact h.total a b

theorem pairwise_sort (h : IsSortOrder α) (xs : List α) : (sort xs).Pairwise fun a b => le a b :=
  List.pairwise_mergeSort h.le_trans h.le_or_le xs

variable [∀ x y : α, Decidable (x ≈ y)]

end

end CanonicalOrder

namespace Serial
variable {a b : Serial} {o : Ordering}

instance : Std.TransCmp (canonical : Serial → Serial → Ordering) :=
  inferInstanceAs (Std.TransCmp (compareLex (compareOn fun s : Serial => s.width.bits)
    (compareOn fun s : Serial => s.value)))

theorem canonical_eq_eq_iff (a b : Serial) : canonical a b = .eq ↔ a ≈ b := by
  have hcanonical : canonical a b =
      (compare a.width.bits b.width.bits).then (compare a.value b.value) := rfl
  rw [hcanonical, Ordering.then_eq_eq, Nat.compare_eq_eq, Nat.compare_eq_eq, equiv_iff,
    Width.ext_iff]

theorem isSortOrder : CanonicalOrder.IsSortOrder Serial :=
  CanonicalOrder.isSortOrder_of_transCmp canonical_eq_eq_iff

/-- How far apart the values lie on a line, which does not wrap around. -/
def gap (a b : Serial) : Nat := ((a.value : Int) - b.value).natAbs

theorem canonical_of_width_eq (hw : a.width = b.width) :
    canonical a b = compare a.value b.value := by
  have hcanonical : canonical a b =
      (compare a.width.bits b.width.bits).then (compare a.value b.value) := rfl
  rw [hcanonical, hw, Nat.compare_eq_eq.2 rfl, Ordering.eq_then]

end Serial

namespace DateSerial

instance : Std.TransCmp (canonical : DateSerial → DateSerial → Ordering) :=
  inferInstanceAs (Std.TransCmp (compareLex (compareOn fun d : DateSerial => d.serial.width.bits)
    (compareOn fun d : DateSerial => d.serial.value)))

theorem isSortOrder : CanonicalOrder.IsSortOrder DateSerial :=
  CanonicalOrder.isSortOrder_of_transCmp fun d e => Serial.canonical_eq_eq_iff d.serial e.serial

end DateSerial

end SerialNumber
