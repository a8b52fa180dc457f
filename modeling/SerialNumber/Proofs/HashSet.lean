import Mathlib.Logic.Function.Basic
import SerialNumber.Serial.Hash

/-! Sets into which items are put in turn. An item is found in the bucket of its hash if it is there
at all, so that of items that are the same the first one is kept, and no other. -/
namespace SerialNumber

section
variable {α : Type} {same : α → α → Bool} {hash : α → Nat} {seen xs : List α} {i k m : Nat} {x : α}

/-- The members of a set into which the items are put in turn, with their places. An item is looked
for among those of its hash only. -/
def keptByHash (hash : α → Nat) (same : α → α → Bool) (items : List α) : List (Nat × α) :=
  go 0 (fun _ => []) items
where
  go (i : Nat) (buckets : Nat → List α) : List α → List (Nat × α)
    | [] => []
    | x :: xs =>
      if (buckets (hash x)).any (same x) then go (i + 1) buckets xs
      else
        (i, x) :: go (i + 1) (Function.update buckets (hash x) (buckets (hash x) ++ [x])) xs

/-- A bucket that takes an item in holds it for those of its hash, and the others hold nothing the
same. -/
theorem any_update_buckets {buckets : Nat → List α}
    (hsame : ∀ x y, same x y → hash x = hash y)
    (hseen : ∀ y, (buckets (hash y)).any (same y) = seen.any (same y)) (x y : α) :
    (Function.update buckets (hash x) (buckets (hash x) ++ [x]) (hash y)).any (same y) =
      (seen ++ [x]).any (same y) := by
  rw [List.any_append, ← hseen y]
  by_cases h : hash y = hash x
  · rw [h, Function.update_self, List.any_append]
  · have hne : same y x = false := by
      cases hyx : same y x with
      | false => rfl
      | true => exact (h (hsame y x hyx)).elim
    rw [Function.update_of_ne h, List.any_cons, hne, List.any_nil, Bool.or_false, Bool.or_false]

theorem keptByHash_go_eq (hsame : ∀ x y, same x y → hash x = hash y) {buckets : Nat → List α}
    (hseen : ∀ y, (buckets (hash y)).any (same y) = seen.any (same y)) :
    keptByHash.go hash same i buckets xs = firstOccurrences.go same i seen xs := by
  induction xs generalizing i buckets seen with
  | nil => rfl
  | cons x xs ih =>
    rw [keptByHash.go, firstOccurrences.go, hseen x]
    split
    · exact ih hseen
    · rw [ih (any_update_buckets hsame hseen x)]

/-- Looking in one bucket is as good as looking everywhere if the same items have the same hash. -/
theorem keptByHash_eq (hsame : ∀ x y, same x y → hash x = hash y) (items : List α) :
    keptByHash hash same items = firstOccurrences same items :=
  keptByHash_go_eq hsame fun _ => rfl

theorem le_of_mem_go (h : (m, x) ∈ firstOccurrences.go same i seen xs) : i ≤ m := by
  induction xs generalizing i seen with
  | nil => cases h
  | cons y xs ih =>
    rw [firstOccurrences.go] at h
    split at h
    · exact Nat.le_of_succ_le (ih h)
    · rcases List.mem_cons.1 h with heq | hmem
      · cases heq
        exact Nat.le_refl _
      · exact Nat.le_of_succ_le (ih hmem)

theorem pairwise_go : ((firstOccurrences.go same i seen xs).map Prod.fst).Pairwise (· < ·) := by
  induction xs generalizing i seen with
  | nil => exact List.Pairwise.nil
  | cons y xs ih =>
    rw [firstOccurrences.go]
    split
    · exact ih
    · rw [List.map_cons]
      refine List.Pairwise.cons ?_ ih
      intro m hm
      obtain ⟨⟨_, x⟩, hmem, rfl⟩ := List.mem_map.1 hm
      exact le_of_mem_go hmem

/-- None of the first `k` items is the same as `x`. -/
def NoneBefore (same : α → α → Bool) (xs : List α) (k : Nat) (x : α) : Prop :=
  ∀ j y, j < k → xs[j]? = some y → ¬ same x y

theorem noneBefore_zero : NoneBefore same xs 0 x := fun _ _ hj => (Nat.not_lt_zero _ hj).elim

theorem noneBefore_succ {z : α} :
    NoneBefore same (z :: xs) (k + 1) x ↔ ¬ same x z ∧ NoneBefore same xs k x := by
  constructor
  · intro h
    exact ⟨h 0 z (Nat.succ_pos k) rfl, fun j y hj hy => h (j + 1) y (Nat.succ_lt_succ hj) hy⟩
  · rintro ⟨hz, h⟩ j y hj hy
    cases j with
    | zero =>
      cases hy
      exact hz
    | succ j => exact h j y (Nat.lt_of_succ_lt_succ hj) hy

/-- What has been seen after one more item, which is not remembered if it is the same as one
before. -/
def remember (same : α → α → Bool) (seen : List α) (z : α) : List α :=
  if seen.any (same z) then seen else seen ++ [z]

/-- What is the same as an item that is not remembered is the same as the one seen before it. -/
theorem none_mem_remember_iff (htrans : ∀ x y z, same x y → same y z → same x z) {z : α} :
    (∀ y ∈ remember same seen z, ¬ same x y) ↔ (∀ y ∈ seen, ¬ same x y) ∧ ¬ same x z := by
  rw [remember]
  split
  case isTrue hz =>
    obtain ⟨u, hu, hzu⟩ := List.any_eq_true.1 hz
    constructor
    · intro hno
      exact ⟨hno, fun hxz => hno u hu (htrans x z u hxz hzu)⟩
    · rintro ⟨hno, _⟩
      exact hno
  case isFalse => simp only [List.forall_mem_append, List.forall_mem_singleton]

theorem mem_go_cons_self {z : α} : (i, x) ∈ firstOccurrences.go same i seen (z :: xs) ↔
    z = x ∧ ∀ y ∈ seen, ¬ same x y := by
  have hlater : ∀ seen, (i, x) ∉ firstOccurrences.go same (i + 1) seen xs := by
    intro seen h
    have hle := le_of_mem_go h
    omega
  rw [firstOccurrences.go]
  split
  case isTrue hz =>
    obtain ⟨u, hu, hzu⟩ := List.any_eq_true.1 hz
    constructor
    · intro h
      exact (hlater _ h).elim
    · rintro ⟨rfl, hno⟩
      exact (hno u hu hzu).elim
  case isFalse hz =>
    rw [List.mem_cons, or_iff_left (hlater _)]
    constructor
    · intro h
      cases h
      exact ⟨rfl, fun y hy hzy => hz (List.any_eq_true.2 ⟨y, hy, hzy⟩)⟩
    · rintro ⟨rfl, _⟩
      rfl

theorem mem_go_cons_later {z : α} :
    (i + (k + 1), x) ∈ firstOccurrences.go same i seen (z :: xs) ↔
      (i + 1 + k, x) ∈ firstOccurrences.go same (i + 1) (remember same seen z) xs := by
  have hplace : i + (k + 1) = i + 1 + k := by omega
  rw [hplace, firstOccurrences.go, remember]
  split
  case isTrue => rfl
  case isFalse =>
    have hne : (i + 1 + k, x) ≠ (i, z) := by
      intro h
      have := congrArg Prod.fst h
      simp only at this
      omega
    rw [List.mem_cons, or_iff_right hne]

/-- By induction on the items still to come: either `x` is the next of them, or its turn comes when
that one has been seen. -/
theorem mem_go_iff (htrans : ∀ x y z, same x y → same y z → same x z) :
    (i + k, x) ∈ firstOccurrences.go same i seen xs ↔
      xs[k]? = some x ∧ (∀ y ∈ seen, ¬ same x y) ∧ NoneBefore same xs k x := by
  induction xs generalizing i k seen with
  | nil => simp [firstOccurrences.go]
  | cons z xs ih =>
    cases k with
    | zero =>
      rw [Nat.add_zero, mem_go_cons_self, List.getElem?_cons_zero, Option.some_inj,
        and_iff_left noneBefore_zero]
    | succ k =>
      rw [mem_go_cons_later, ih, none_mem_remember_iff htrans, List.getElem?_cons_succ,
        noneBefore_succ, and_assoc]

end

section
variable {α : Type} [Setoid α] [∀ x y : α, Decidable (x ≈ y)] {items : List α} {x y : α}

/-- Those items are kept that are the same as none before them, each once and in its place. -/
def KeepsFirsts (items : List α) (kept : List (Nat × α)) : Prop :=
  (kept.map Prod.fst).Pairwise (· < ·) ∧
    ∀ i x, (i, x) ∈ kept ↔ items[i]? = some x ∧ ∀ j y, j < i → items[j]? = some y → ¬ x ≈ y

theorem keepsFirsts_firstOccurrences (items : List α) :
    KeepsFirsts items (firstOccurrences (fun x y => decide (x ≈ y)) items) := by
  refine ⟨pairwise_go, ?_⟩
  intro i x
  have htrans : ∀ x y z : α, decide (x ≈ y) → decide (y ≈ z) → decide (x ≈ z) := by
    intro x y z hxy hyz
    exact decide_eq_true (Setoid.trans (of_decide_eq_true hxy) (of_decide_eq_true hyz))
  have hmem : (0 + i, x) ∈ firstOccurrences.go (fun x y => decide (x ≈ y)) 0 [] items ↔ _ :=
    mem_go_iff htrans
  simpa [NoneBefore, firstOccurrences] using hmem

end

end SerialNumber
