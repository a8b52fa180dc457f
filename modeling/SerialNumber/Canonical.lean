import SerialNumber.Serial

/-! The canonical order, a total order with no regard to wrapping around. -/

namespace SerialNumber

/-- Types whose values have a place in a sorted list. -/
class CanonicalOrder (α : Type) where
  canonical : α → α → Ordering

export CanonicalOrder (canonical)

namespace CanonicalOrder
variable {α : Type} [CanonicalOrder α]

def lt (a b : α) : Bool := (canonical a b).isLT

def le (a b : α) : Bool := (canonical a b).isLE

def gt (a b : α) : Bool := (canonical a b).isGT

def ge (a b : α) : Bool := (canonical a b).isGE

/-- Sorts in canonical order and leaves equal items as they stood. -/
def sort (xs : List α) : List α := xs.mergeSort le

end CanonicalOrder

/-- Narrower spaces come first, then smaller values. -/
instance : CanonicalOrder Serial where
  canonical a b := (compare a.width.bits b.width.bits).then (compare a.value b.value)

end SerialNumber
