import Mathlib.Algebra.Order.Ring.Int
import Mathlib.Logic.Function.Iterate
import SerialNumber.Calendar.Date

/-! Day numbers count days. A day is told by its number, the number of the next day is one more, and
every number is that of a day. -/
namespace SerialNumber

section counting
variable {α : Type} {P : α → Prop} {count : α → Int} {step : α → α} {a b : α} {k : Int}

/-- From `a` it is `k` steps on to `b`, or from `b` it is `-k` steps on to `a`. -/
def StepsApart (step : α → α) (a b : α) (k : Int) : Prop :=
  ∃ j : Nat, k = j ∧ b = step^[j] a ∨ k = -j ∧ a = step^[j] b

/-- A step that counts one more counts `j` more when it is taken `j` times. -/
theorem count_iterate (hstep : ∀ a, P a → P (step a) ∧ count (step a) = count a + 1) (ha : P a)
    (j : Nat) : P (step^[j] a) ∧ count (step^[j] a) = count a + j := by
  induction j with
  | zero => exact ⟨ha, by simp⟩
  | succ j ih =>
    obtain ⟨hP, hcount⟩ := ih
    obtain ⟨hP', hcount'⟩ := hstep _ hP
    rw [Function.iterate_succ_apply']
    refine ⟨hP', ?_⟩
    push_cast
    omega

/-- Step by step everything is reached that counts more. -/
theorem exists_iterate (hstep : ∀ a, P a → P (step a) ∧ count (step a) = count a + 1)
    (hinj : ∀ a b, P a → P b → count a = count b → a = b) (ha : P a) (hb : P b)
    (hle : count a ≤ count b) : ∃ j : Nat, count b - count a = j ∧ b = step^[j] a := by
  obtain ⟨j, hj⟩ := Int.eq_ofNat_of_zero_le (Int.sub_nonneg_of_le hle)
  obtain ⟨hP, hcount⟩ := count_iterate hstep ha j
  exact ⟨j, hj, hinj _ _ hb hP (by omega)⟩

/-- The steps from one to another are what the count tells. -/
theorem stepsApart_iff (hstep : ∀ a, P a → P (step a) ∧ count (step a) = count a + 1)
    (hinj : ∀ a b, P a → P b → count a = count b → a = b) (ha : P a) (hb : P b) :
    StepsApart step a b k ↔ k = count b - count a := by
  constructor
  · rintro ⟨j, ⟨rfl, rfl⟩ | ⟨rfl, rfl⟩⟩
    · obtain ⟨_, hcount⟩ := count_iterate hstep ha j
      omega
    · obtain ⟨_, hcount⟩ := count_iterate hstep hb j
      omega
  · rintro rfl
    rcases Int.le_total (count a) (count b) with hle | hle
    · obtain ⟨j, hj, hb⟩ := exists_iterate hstep hinj ha hb hle
      exact ⟨j, Or.inl ⟨hj, hb⟩⟩
    · obtain ⟨j, hj, ha⟩ := exists_iterate hstep hinj hb ha hle
      exact ⟨j, Or.inr ⟨by omega, ha⟩⟩

end counting

section splitSpans
variable {lens : List Nat} {i n r len : Nat}

theorem exists_splitSpans_eq (h : n < lens.sum) : ∃ i r len, splitSpans lens n = (i, r) ∧
    lens[i]? = some len ∧ r < len ∧ (lens.take i).sum + r = n := by
  induction lens generalizing n with
  | nil => simp at h
  | cons l lens ih =>
    by_cases hn : n < l
    · exact ⟨0, n, l, by rw [splitSpans, if_pos hn], rfl, hn, by simp⟩
    · rw [List.sum_cons] at h
      obtain ⟨i, r, len, hsplit, hlen, hlt, hsum⟩ := ih (n := n - l) (by omega)
      refine ⟨i + 1, r, len, by rw [splitSpans, if_neg hn, hsplit], by simpa using hlen, hlt, ?_⟩
      rw [List.take_succ_cons, List.sum_cons]
      omega

/-- A place and what is left over within its span determine the number. -/
theorem splitSpans_sum_take_add (hi : lens[i]? = some len) (hr : r < len) :
    splitSpans lens ((lens.take i).sum + r) = (i, r) := by
  induction lens generalizing i with
  | nil => simp at hi
  | cons l lens ih =>
    cases i with
    | zero =>
      obtain rfl : l = len := by simpa using hi
      simp [splitSpans, hr]
    | succ i =>
      have htail : lens[i]? = some len := by simpa using hi
      have hsum : ((l :: lens).take (i + 1)).sum + r = l + ((lens.take i).sum + r) := by
        simp [Nat.add_assoc]
      rw [hsum, splitSpans, if_neg (by omega), Nat.add_sub_cancel_left, ih htail]

theorem sum_take_succ (hi : lens[i]? = some len) :
    (lens.take (i + 1)).sum = (lens.take i).sum + len := by
  rw [List.take_add_one, hi, List.sum_append]
  simp

theorem sum_take_add_le (hi : lens[i]? = some len) : (lens.take i).sum + len ≤ lens.sum := by
  have hsplit : (lens.take (i + 1)).sum + (lens.drop (i + 1)).sum = lens.sum := by
    rw [← List.sum_append, List.take_append_drop]
  rw [sum_take_succ hi] at hsplit
  omega

end splitSpans

namespace Date
variable {d : Date} {y : Int} {i m n : Nat}

def yearLength (y : Int) : Nat := if isLeap y then 366 else 365

theorem isLeap_iff : isLeap y ↔ y % 4 = 0 ∧ (y % 100 ≠ 0 ∨ y % 400 = 0) := by
  simp [isLeap]

theorem daysBeforeYear_succ (y : Int) :
    daysBeforeYear (y + 1) = daysBeforeYear y + yearLength y := by
  -- Each quotient goes up by one where its divisor divides the year.
  have h4 : (y + 1 + 3) / 4 = (y + 3) / 4 + if y % 4 = 0 then 1 else 0 := by split <;> omega
  have h100 : (y + 1 + 99) / 100 = (y + 99) / 100 + if y % 100 = 0 then 1 else 0 := by
    split <;> omega
  have h400 : (y + 1 + 399) / 400 = (y + 399) / 400 + if y % 400 = 0 then 1 else 0 := by
    split <;> omega
  have hlen : (yearLength y : Int) = 365 + (if y % 4 = 0 then 1 else 0) -
      (if y % 100 = 0 then 1 else 0) + if y % 400 = 0 then 1 else 0 := by
    simp only [yearLength, isLeap_iff]
    split_ifs <;> omega
  simp only [daysBeforeYear, h4, h100, h400, hlen]
  omega

theorem daysBeforeYear_cycle_add (c y : Int) :
    daysBeforeYear (400 * c + y) = daysInCycle * c + daysBeforeYear y := by
  simp only [daysBeforeYear, daysInCycle]
  omega

theorem isLeap_cycle_add (c y : Int) : isLeap (400 * c + y) = isLeap y := by
  have h4 : (400 * c + y) % 4 = y % 4 := by omega
  have h100 : (400 * c + y) % 100 = y % 100 := by omega
  have h400 : (400 * c + y) % 400 = y % 400 := by omega
  simp only [isLeap, h4, h100, h400]

theorem yearLength_cycle_add (c y : Int) : yearLength (400 * c + y) = yearLength y := by
  rw [yearLength, isLeap_cycle_add, yearLength]

theorem daysBeforeYear_le {z : Int} (h : y ≤ z) : daysBeforeYear y ≤ daysBeforeYear z := by
  simp only [daysBeforeYear]
  omega

theorem getElem?_yearLengths (h : i < 400) : yearLengths[i]? = some (yearLength i) := by
  simp [yearLengths, yearLength, h]

theorem sum_take_yearLengths (h : i ≤ 400) :
    ((yearLengths.take i).sum : Int) = daysBeforeYear i := by
  induction i with
  | zero => rfl
  | succ i ih =>
    rw [sum_take_succ (getElem?_yearLengths h), Int.natCast_add, ih (by omega), Int.natCast_succ,
      daysBeforeYear_succ]

theorem sum_yearLengths : yearLengths.sum = daysInCycle := by
  have hlen : yearLengths.length = 400 := by simp [yearLengths]
  have hsum := sum_take_yearLengths (i := 400) (Nat.le_refl _)
  rw [← hlen, List.take_length] at hsum
  have hdays : daysBeforeYear (yearLengths.length : Nat) = daysInCycle := by
    rw [hlen]
    decide
  omega

theorem sum_monthLengths (y : Int) : (monthLengths y).sum = yearLength y := by
  simp only [monthLengths, yearLength]
  split <;> rfl

theorem length_monthLengths (y : Int) : (monthLengths y).length = 12 := rfl

/-- The months that there are, as places in the list of their lengths. -/
theorem getElem?_monthLengths (hm : 1 ≤ m) (hm' : m ≤ 12) :
    (monthLengths y)[m - 1]? = some (monthLength y m) := by
  have hlt : m - 1 < (monthLengths y).length := by rw [length_monthLengths]; omega
  rw [monthLength, List.getD_eq_getElem?_getD, List.getElem?_eq_getElem hlt, Option.getD_some]

/-- The days of a month by the rule of the calendar. -/
def daysOfMonth (year : Int) (month : Nat) : Nat :=
  if month = 2 then if year % 4 = 0 ∧ (year % 100 ≠ 0 ∨ year % 400 = 0) then 29 else 28
  else if month = 4 ∨ month = 6 ∨ month = 9 ∨ month = 11 then 30
  else 31

theorem monthLength_eq_daysOfMonth (hm : 1 ≤ m) (hm' : m ≤ 12) :
    monthLength y m = daysOfMonth y m := by
  have hcases : m = 1 ∨ m = 2 ∨ m = 3 ∨ m = 4 ∨ m = 5 ∨ m = 6 ∨ m = 7 ∨ m = 8 ∨ m = 9 ∨ m = 10 ∨
      m = 11 ∨ m = 12 := by omega
  rcases hcases with rfl | rfl | rfl | rfl | rfl | rfl | rfl | rfl | rfl | rfl | rfl | rfl <;>
    simp [monthLength, monthLengths, daysOfMonth, isLeap_iff]

theorem monthLength_bounds (hm : 1 ≤ m) (hm' : m ≤ 12) :
    28 ≤ monthLength y m ∧ monthLength y m ≤ 31 := by
  rw [monthLength_eq_daysOfMonth hm hm', daysOfMonth]
  split_ifs <;> omega

theorem daysBeforeMonth_succ (hm : 1 ≤ m) (hm' : m ≤ 12) :
    daysBeforeMonth y (m + 1) = daysBeforeMonth y m + monthLength y m := by
  rw [daysBeforeMonth, daysBeforeMonth, ← sum_take_succ (getElem?_monthLengths hm hm')]
  congr 2
  omega

/-- A month ends within its year. -/
theorem daysBeforeMonth_add_le (hm : 1 ≤ m) (hm' : m ≤ 12) :
    daysBeforeMonth y m + monthLength y m ≤ yearLength y := by
  rw [daysBeforeMonth, ← sum_monthLengths]
  exact sum_take_add_le (getElem?_monthLengths hm hm')

theorem dayNumber_add (d : Date) : d.dayNumber + daysBeforeYear 1970 =
    daysBeforeYear d.year + daysBeforeMonth d.year d.month + (d.day - 1) := by
  rw [dayNumber]
  omega

/-- A day lies in its year. -/
theorem daysBeforeYear_le_dayNumber (h : d.Valid) :
    daysBeforeYear d.year ≤ d.dayNumber + daysBeforeYear 1970 ∧
      d.dayNumber + daysBeforeYear 1970 < daysBeforeYear (d.year + 1) := by
  obtain ⟨hm, hm', hd, hd'⟩ := h
  have hle : daysBeforeMonth d.year d.month + monthLength d.year d.month ≤ yearLength d.year :=
    daysBeforeMonth_add_le hm hm'
  rw [dayNumber_add, daysBeforeYear_succ]
  omega

theorem year_lt_iff (h : d.Valid) :
    d.year < y ↔ d.dayNumber + daysBeforeYear 1970 < daysBeforeYear y := by
  obtain ⟨hle, hlt⟩ := daysBeforeYear_le_dayNumber h
  constructor
  · intro hy
    have hnext := daysBeforeYear_le (Int.add_one_le_of_lt hy)
    omega
  · intro hdays
    by_contra hy
    have hyear := daysBeforeYear_le (Int.le_of_not_gt hy)
    omega

/-- The cycle of a day, its year in the cycle, and the days before it in the year. -/
theorem exists_year (n : Int) : ∃ (i s : Nat),
    splitSpans yearLengths (n % daysInCycle).toNat = (i, s) ∧
      s < yearLength (400 * (n / daysInCycle) + i) ∧
      n = daysBeforeYear (400 * (n / daysInCycle) + i) + s := by
  have hmod : 0 ≤ n % daysInCycle := Int.emod_nonneg _ (by decide)
  have hmod' : n % daysInCycle < daysInCycle := Int.emod_lt_of_pos _ (by decide)
  have hcycle : (n % daysInCycle).toNat < yearLengths.sum := by
    rw [sum_yearLengths]
    omega
  obtain ⟨i, s, len, hsplit, hlen, hlt, hsum⟩ := exists_splitSpans_eq hcycle
  have hi : i < 400 := by simpa [yearLengths] using (List.getElem?_eq_some_iff.1 hlen).1
  rw [getElem?_yearLengths hi] at hlen
  refine ⟨i, s, hsplit, ?_, ?_⟩
  · rw [yearLength_cycle_add, Option.some.inj hlen]
    exact hlt
  · have hbefore := sum_take_yearLengths (Nat.le_of_lt hi)
    have hdiv := Int.mul_ediv_add_emod n daysInCycle
    rw [daysBeforeYear_cycle_add]
    omega

theorem exists_month (h : n < yearLength y) : ∃ (m k : Nat),
    splitSpans (monthLengths y) n = (m, k) ∧ m < 12 ∧ k < monthLength y (m + 1) ∧
      n = daysBeforeMonth y (m + 1) + k := by
  rw [← sum_monthLengths] at h
  obtain ⟨m, k, len, hsplit, hlen, hlt, hsum⟩ := exists_splitSpans_eq h
  have hm : m < 12 := (List.getElem?_eq_some_iff.1 hlen).1
  refine ⟨m, k, hsplit, hm, ?_, hsum.symm⟩
  have hmonth := getElem?_monthLengths (y := y) (m := m + 1) (by omega) hm
  rw [Nat.add_sub_cancel, hlen] at hmonth
  rw [← Option.some.inj hmonth]
  exact hlt

/-- A day's number is made up of the days before its year, before its month and before itself. -/
theorem ofDayNumber_parts (n : Int) : ∃ (year : Int) (m k : Nat),
    ofDayNumber n = ⟨year, m + 1, k + 1⟩ ∧ m < 12 ∧ k < monthLength year (m + 1) ∧
      n + daysBeforeYear 1970 = daysBeforeYear year + daysBeforeMonth year (m + 1) + k := by
  obtain ⟨i, s, hyear, hs, hn⟩ := exists_year (n + daysBeforeYear 1970)
  obtain ⟨m, k, hmonth, hm, hk, hsum⟩ := exists_month hs
  refine ⟨_, m, k, ?_, hm, hk, by omega⟩
  simp only [ofDayNumber, hyear, hmonth]

theorem valid_ofDayNumber (n : Int) : (ofDayNumber n).Valid := by
  obtain ⟨year, m, k, heq, hm, hk, _⟩ := ofDayNumber_parts n
  rw [heq]
  exact ⟨Nat.le_add_left .., hm, Nat.le_add_left .., hk⟩

theorem dayNumber_ofDayNumber (n : Int) : (ofDayNumber n).dayNumber = n := by
  obtain ⟨year, m, k, heq, _, _, hsum⟩ := ofDayNumber_parts n
  rw [heq, dayNumber]
  push_cast
  omega

/-- The days before a year split into whole cycles and the years before it in its own. -/
theorem splitSpans_yearLengths {s : Nat} (h : s < yearLength y) :
    (daysBeforeYear y + s) / daysInCycle = y / 400 ∧
      splitSpans yearLengths ((daysBeforeYear y + s) % daysInCycle).toNat =
        ((y % 400).toNat, s) := by
  obtain ⟨i, hi⟩ : ∃ i : Nat, y = 400 * (y / 400) + i := ⟨(y % 400).toNat, by omega⟩
  have hi400 : i < 400 := by omega
  have hplace : (y % 400).toNat = i := by omega
  have hlen : yearLength y = yearLength i := by rw [hi, yearLength_cycle_add]
  have hcycle := daysBeforeYear_cycle_add (y / 400) i
  have hbefore := sum_take_yearLengths (Nat.le_of_lt hi400)
  rw [← hi, ← hbefore] at hcycle
  have hyear := getElem?_yearLengths hi400
  have hle := sum_take_add_le hyear
  rw [sum_yearLengths] at hle
  have hdays : daysBeforeYear y + s =
      ((yearLengths.take i).sum + s : Nat) + daysInCycle * (y / 400) := by
    rw [hcycle]
    omega
  constructor
  · rw [hdays, Int.add_mul_ediv_left _ _ (by decide), Int.ediv_eq_zero_of_lt (by omega) (by omega),
      Int.zero_add]
  · rw [hdays, Int.add_mul_emod_self_left, Int.emod_eq_of_lt (by omega) (by omega),
      Int.toNat_natCast, hplace]
    exact splitSpans_sum_take_add hyear (by omega)

theorem ofDayNumber_dayNumber (h : d.Valid) : ofDayNumber d.dayNumber = d := by
  obtain ⟨hm, hm', hd, hd'⟩ := h
  have hle : daysBeforeMonth d.year d.month + monthLength d.year d.month ≤ yearLength d.year :=
    daysBeforeMonth_add_le hm hm'
  have hdays : d.dayNumber + daysBeforeYear 1970 =
      daysBeforeYear d.year + (daysBeforeMonth d.year d.month + (d.day - 1) : Nat) := by
    rw [dayNumber_add]
    omega
  obtain ⟨hcycle, hyear⟩ := splitSpans_yearLengths (y := d.year)
    (s := daysBeforeMonth d.year d.month + (d.day - 1)) (by omega)
  have hmonth : splitSpans (monthLengths d.year) (daysBeforeMonth d.year d.month + (d.day - 1)) =
      (d.month - 1, d.day - 1) :=
    splitSpans_sum_take_add (getElem?_monthLengths hm hm') (by omega)
  have hplace : 400 * (d.year / 400) + ((d.year % 400).toNat : Int) = d.year := by omega
  rw [ofDayNumber]
  simp only [hdays, hcycle, hyear, hplace, hmonth, Nat.sub_add_cancel hm, Nat.sub_add_cancel hd]

theorem monthLength_twelve (y : Int) : monthLength y 12 = 31 := rfl

theorem daysBeforeMonth_twelve (y : Int) : daysBeforeMonth y 12 + 31 = yearLength y := by
  rw [← sum_monthLengths, ← monthLength_twelve y, ← daysBeforeMonth_succ (by decide) (by decide)]
  rfl

theorem daysBeforeMonth_one (y : Int) : daysBeforeMonth y 1 = 0 := rfl

theorem valid_next (h : d.Valid) : d.next.Valid := by
  obtain ⟨hm, hm', hd, hd'⟩ := h
  rw [next]
  split
  · exact ⟨hm, hm', Nat.le_add_left .., by assumption⟩
  · split
    case isTrue hlt =>
      obtain ⟨hpos, _⟩ := monthLength_bounds (y := d.year) (m := d.month + 1) (by omega) (by omega)
      exact ⟨Nat.le_add_left .., hlt, Nat.le_refl _, by simp only; omega⟩
    case isFalse => exact ⟨Nat.le_refl _, Nat.le_add_left .., Nat.le_refl _, Nat.le_add_left ..⟩

theorem dayNumber_next (h : d.Valid) : d.next.dayNumber = d.dayNumber + 1 := by
  obtain ⟨hm, hm', hd, hd'⟩ := h
  rw [next]
  split
  case isTrue hlt =>
    simp only [dayNumber]
    omega
  case isFalse hlast =>
    have hday : d.day = monthLength d.year d.month := by omega
    split
    case isTrue hlt =>
      simp only [dayNumber, daysBeforeMonth_succ hm hm']
      omega
    case isFalse hdec =>
      have hmonth : d.month = 12 := by omega
      have hyear := daysBeforeMonth_twelve d.year
      rw [hmonth, monthLength_twelve] at hday
      simp only [dayNumber, hmonth, daysBeforeYear_succ, daysBeforeMonth_one]
      omega

/-- Of the centuries only each fourth has a leap day. -/
example : next ⟨1900, 2, 28⟩ = ⟨1900, 3, 1⟩ ∧ next ⟨2000, 2, 28⟩ = ⟨2000, 2, 29⟩ := by decide

theorem valid_previous (h : d.Valid) : d.previous.Valid := by
  obtain ⟨hm, hm', hd, hd'⟩ := h
  rw [previous]
  split
  case isTrue hlt => exact ⟨hm, hm', by simp only; omega, by simp only; omega⟩
  case isFalse =>
    split
    case isTrue hlt =>
      obtain ⟨hpos, _⟩ := monthLength_bounds (y := d.year) (m := d.month - 1) (by omega) (by omega)
      exact ⟨by simp only; omega, by simp only; omega, by simp only; omega, Nat.le_refl _⟩
    case isFalse => exact ⟨Nat.le_add_left .., Nat.le_refl _, Nat.le_add_left .., Nat.le_refl _⟩

theorem next_previous (h : d.Valid) : d.previous.next = d := by
  obtain ⟨hm, hm', hd, hd'⟩ := h
  obtain ⟨year, month, day⟩ := d
  simp only at hm hm' hd hd'
  rw [previous]
  split
  case isTrue hlt =>
    simp only at hlt
    rw [next, if_pos (by simp only; omega)]
    simp only [Nat.sub_add_cancel hd]
  case isFalse hfirst =>
    simp only at hfirst
    obtain rfl : day = 1 := by omega
    split
    case isTrue hlt =>
      simp only at hlt
      rw [next, if_neg (by simp only; omega), if_pos (by simp only; omega)]
      simp only [Nat.sub_add_cancel hm]
    case isFalse hjan =>
      simp only at hjan
      obtain rfl : month = 1 := by omega
      rw [next, if_neg (by simp [monthLength_twelve]), if_neg (by simp)]
      simp

theorem dayNumber_previous (h : d.Valid) : d.previous.dayNumber = d.dayNumber - 1 := by
  have hnext := dayNumber_next (valid_previous h)
  rw [next_previous h] at hnext
  omega

theorem eq_of_dayNumber_eq (d e : Date) (hd : d.Valid) (he : e.Valid)
    (h : d.dayNumber = e.dayNumber) : d = e := by
  rw [← ofDayNumber_dayNumber hd, h, ofDayNumber_dayNumber he]

def epoch : Date := ⟨1970, 1, 1⟩

/-- The days from 1 January 1970, counted one by one. -/
def IsDayCount (d : Date) (k : Int) : Prop := StepsApart next epoch d k

theorem isDayCount_iff {k : Int} (h : d.Valid) : d.IsDayCount k ↔ k = d.dayNumber := by
  have hstep : ∀ d : Date, d.Valid → d.next.Valid ∧ d.next.dayNumber = d.dayNumber + 1 :=
    fun d hd => ⟨valid_next hd, dayNumber_next hd⟩
  have hepoch : epoch.Valid := by decide
  have hzero : epoch.dayNumber = 0 := by decide
  rw [IsDayCount, stepsApart_iff hstep eq_of_dayNumber_eq hepoch h, hzero, Int.sub_zero]

end Date
end SerialNumber
