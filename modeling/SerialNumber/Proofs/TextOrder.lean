import SerialNumber.Proofs.DateText
import SerialNumber.Proofs.Sorting

/-! The order of texts. Numbers written in so many places stand in the order of their digits, and so
do stamps and the seconds that they name, both of which go by the year first and by the second last.
The canonical order of dates is therefore that of their texts. -/
namespace SerialNumber

section ordering
variable {α : Type} {cmp : α → α → Ordering} {xs xs' ys ys' : List α} {o p : Ordering}

theorem ordering_eq (hlt : o = .lt ↔ p = .lt) (hgt : o = .gt ↔ p = .gt) : o = p := by
  cases o <;> cases p <;> simp_all

theorem compare_natCast (m n : Nat) : compare (m : Int) n = compare m n := by
  apply ordering_eq
  · rw [Int.compare_eq_lt, Nat.compare_eq_lt]
    exact Int.ofNat_lt
  · rw [Int.compare_eq_gt, Nat.compare_eq_gt]
    exact Int.ofNat_lt

theorem compare_uint8 (b c : UInt8) : compare b c = compare b.toNat c.toNat := by
  apply ordering_eq
  · rw [Nat.compare_eq_lt]
    exact compareOfLessAndEq_eq_lt
  · rw [Nat.compare_eq_gt]
    exact compareOfLessAndEq_eq_gt UInt8.le_antisymm UInt8.le_total UInt8.not_le b c

/-- The first parts decide unless they are equal, as long as neither ends before the other. -/
theorem compareLex_append (h : xs.length = ys.length) :
    (xs ++ xs').compareLex cmp (ys ++ ys') =
      (xs.compareLex cmp ys).then (xs'.compareLex cmp ys') := by
  induction xs generalizing ys with
  | nil =>
    cases ys with
    | nil => rfl
    | cons y ys => contradiction
  | cons x xs ih =>
    cases ys with
    | nil => contradiction
    | cons y ys =>
      rw [List.cons_append, List.cons_append, List.compareLex_cons_cons,
        List.compareLex_cons_cons, ih (Nat.succ.inj h), Ordering.then_assoc]

end ordering

/-- Byte by byte, where a text that another one begins with comes before it. -/
def compareBytes (t u : String) : Ordering :=
  (Numeral.bytes t).compareLex compare (Numeral.bytes u)

namespace Numeral
variable {k m n : Nat}

theorem compare_div_mod (m n : Nat) :
    compare m n = (compare (m / 10) (n / 10)).then (compare (m % 10) (n % 10)) := by
  apply ordering_eq
  · simp only [Ordering.then_eq_lt, Nat.compare_eq_lt, Nat.compare_eq_eq]
    omega
  · simp only [Ordering.then_eq_gt, Nat.compare_eq_gt, Nat.compare_eq_eq]
    omega

theorem compareLex_digit (hm : m < 10) (hn : n < 10) :
    [digitByte (Nat.digitChar m)].compareLex compare [digitByte (Nat.digitChar n)] =
      compare m n := by
  rw [List.compareLex_cons_cons, List.compareLex_nil_nil, Ordering.then_eq, compare_uint8,
    toNat_digitByte_digitChar hm, toNat_digitByte_digitChar hn]
  apply ordering_eq
  · rw [Nat.compare_eq_lt, Nat.compare_eq_lt]
    omega
  · rw [Nat.compare_eq_gt, Nat.compare_eq_gt]
    omega

/-- Numbers written in so many places, which they fit, stand in the order of their digits. -/
theorem compareLex_fixed (hm : m < 10 ^ k) (hn : n < 10 ^ k) :
    ((fixed k m).map digitByte).compareLex compare ((fixed k n).map digitByte) = compare m n := by
  induction k generalizing m n with
  | zero =>
    obtain rfl : m = 0 := by omega
    obtain rfl : n = 0 := by omega
    rfl
  | succ k ih =>
    have hlen : ((fixed k (m / 10)).map digitByte).length =
        ((fixed k (n / 10)).map digitByte).length := by simp
    rw [Nat.pow_succ] at hm hn
    rw [fixed, fixed, List.map_append, List.map_append, compareLex_append hlen,
      ih (by omega) (by omega), compare_div_mod m n]
    congr 1
    exact compareLex_digit (Nat.mod_lt _ (by decide)) (Nat.mod_lt _ (by decide))

end Numeral

namespace Date
variable {d e : Date} {y : Int} {m n : Nat}

/-- By the year, the month and the day, in this order. -/
def compareFields (d e : Date) : Ordering :=
  (compare d.year e.year).then ((compare d.month e.month).then (compare d.day e.day))

theorem daysBeforeMonth_le (h : m ≤ n) : daysBeforeMonth y m ≤ daysBeforeMonth y n := by
  obtain ⟨k, hk⟩ := Nat.exists_eq_add_of_le (Nat.sub_le_sub_right h 1)
  rw [daysBeforeMonth, daysBeforeMonth, hk, List.take_add, List.sum_append]
  exact Nat.le_add_right ..

theorem dayNumber_lt_of_year_lt (hd : d.Valid) (he : e.Valid) (h : d.year < e.year) :
    d.dayNumber < e.dayNumber := by
  have hends := (year_lt_iff hd).1 h
  obtain ⟨hbegins, _⟩ := daysBeforeYear_le_dayNumber he
  omega

theorem dayNumber_lt_of_month_lt (hd : d.Valid) (he : e.Valid) (hy : d.year = e.year)
    (h : d.month < e.month) : d.dayNumber < e.dayNumber := by
  obtain ⟨hm, hm', _, hday⟩ := hd
  obtain ⟨_, _, hday', _⟩ := he
  have hle : daysBeforeMonth d.year (d.month + 1) ≤ daysBeforeMonth d.year e.month :=
    daysBeforeMonth_le h
  rw [daysBeforeMonth_succ hm hm'] at hle
  simp only [dayNumber, ← hy]
  omega

theorem dayNumber_lt_iff (hd : d.Valid) (he : e.Valid) : d.dayNumber < e.dayNumber ↔
    d.year < e.year ∨
      d.year = e.year ∧ (d.month < e.month ∨ d.month = e.month ∧ d.day < e.day) := by
  -- The first field that differs decides: what follows it is less than a whole one of its kind.
  rcases Int.lt_trichotomy d.year e.year with hlt | hyear | hgt
  · have := dayNumber_lt_of_year_lt hd he hlt
    omega
  · rcases Nat.lt_trichotomy d.month e.month with hlt | hmonth | hgt
    · have := dayNumber_lt_of_month_lt hd he hyear hlt
      omega
    · have hdays : d.dayNumber - e.dayNumber = d.day - e.day := by
        simp only [dayNumber, hyear, hmonth]
        omega
      omega
    · have := dayNumber_lt_of_month_lt he hd hyear.symm hgt
      omega
  · have := dayNumber_lt_of_year_lt he hd hgt
    omega

theorem compare_dayNumber (hd : d.Valid) (he : e.Valid) :
    compare d.dayNumber e.dayNumber = d.compareFields e := by
  apply ordering_eq
  · simp only [compareFields, Ordering.then_eq_lt, Int.compare_eq_lt, Int.compare_eq_eq,
      Nat.compare_eq_lt, Nat.compare_eq_eq, dayNumber_lt_iff hd he]
  · simp only [compareFields, Ordering.then_eq_gt, Int.compare_eq_gt, Int.compare_eq_eq,
      Nat.compare_eq_gt, Nat.compare_eq_eq, dayNumber_lt_iff he hd]
    omega

end Date

/-- By the hour, the minute and the second, in this order. -/
def Clock.compareFields (c d : Clock) : Ordering :=
  (compare c.hour d.hour).then ((compare c.minute d.minute).then (compare c.second d.second))

theorem Clock.compare_secondOfDay {c d : Clock} (hc : c.Valid) (hd : d.Valid) :
    compare c.secondOfDay d.secondOfDay = c.compareFields d := by
  obtain ⟨_, hm, hs⟩ := hc
  obtain ⟨_, hm', hs'⟩ := hd
  apply ordering_eq
  · simp only [compareFields, secondOfDay, Ordering.then_eq_lt, Nat.compare_eq_lt,
      Nat.compare_eq_eq]
    omega
  · simp only [compareFields, secondOfDay, Ordering.then_eq_gt, Nat.compare_eq_gt,
      Nat.compare_eq_eq]
    omega

namespace DateTime
variable {t u : DateTime}

def compareFields (t u : DateTime) : Ordering :=
  (t.date.compareFields u.date).then (t.clock.compareFields u.clock)

theorem compare_seconds (ht : t.Valid) (hu : u.Valid) :
    compare t.seconds u.seconds = t.compareFields u := by
  have hlt := Clock.secondOfDay_lt ht.2
  have hlt' := Clock.secondOfDay_lt hu.2
  rw [compareFields, ← Date.compare_dayNumber ht.1 hu.1, ← Clock.compare_secondOfDay ht.2 hu.2]
  apply ordering_eq
  · simp only [seconds, Ordering.then_eq_lt, Int.compare_eq_lt, Int.compare_eq_eq,
      Nat.compare_eq_lt]
    omega
  · simp only [seconds, Ordering.then_eq_gt, Int.compare_eq_gt, Int.compare_eq_eq,
      Nat.compare_eq_gt]
    omega

/-- The bytes of a stamp are those of its fields in turn. -/
theorem bytes_stamp (t : DateTime) : Numeral.bytes t.stamp =
    (Numeral.fixed 4 t.date.year.toNat).map Numeral.digitByte ++
    ((Numeral.fixed 2 t.date.month).map Numeral.digitByte ++
    ((Numeral.fixed 2 t.date.day).map Numeral.digitByte ++
    ((Numeral.fixed 2 t.clock.hour).map Numeral.digitByte ++
    ((Numeral.fixed 2 t.clock.minute).map Numeral.digitByte ++
    (Numeral.fixed 2 t.clock.second).map Numeral.digitByte)))) := by
  rw [Numeral.bytes_eq_map fun c hc => isDigit_of_mem_stamp hc, toList_stamp]
  simp only [List.map_append, List.append_assoc]

/-- Each field of a stamp fits in its places. -/
theorem fields_lt (h : t.Stampable) : t.date.year.toNat < 10 ^ 4 ∧ t.date.month < 10 ^ 2 ∧
    t.date.day < 10 ^ 2 ∧ t.clock.hour < 10 ^ 2 ∧ t.clock.minute < 10 ^ 2 ∧
    t.clock.second < 10 ^ 2 := by
  obtain ⟨⟨⟨hm, hm', _, hd⟩, hh, hmi, hs⟩, _, hy, hy'⟩ := h
  obtain ⟨_, hlen⟩ := Date.monthLength_bounds (y := t.date.year) hm hm'
  omega

theorem compareBytes_stamp (ht : t.Stampable) (hu : u.Stampable) :
    compareBytes t.stamp u.stamp = t.compareFields u := by
  obtain ⟨hy, hmo, hd, hh, hmi, hs⟩ := fields_lt ht
  obtain ⟨hy', hmo', hd', hh', hmi', hs'⟩ := fields_lt hu
  have hyear : compare t.date.year u.date.year =
      compare t.date.year.toNat u.date.year.toNat := by
    rw [← compare_natCast, Int.toNat_of_nonneg ht.2.2.1, Int.toNat_of_nonneg hu.2.2.1]
  rw [compareBytes, bytes_stamp, bytes_stamp,
    compareLex_append (by simp), Numeral.compareLex_fixed hy hy',
    compareLex_append (by simp), Numeral.compareLex_fixed hmo hmo',
    compareLex_append (by simp), Numeral.compareLex_fixed hd hd',
    compareLex_append (by simp), Numeral.compareLex_fixed hh hh',
    compareLex_append (by simp), Numeral.compareLex_fixed hmi hmi',
    Numeral.compareLex_fixed hs hs', compareFields, Date.compareFields, Clock.compareFields, hyear,
    Ordering.then_assoc, Ordering.then_assoc]

end DateTime

namespace DateSerial
variable {d e : DateSerial}

theorem canonical_eq_compareBytes (d e : DateSerial) :
    canonical d e = compareBytes d.text e.text := by
  have hd := inWindow_shown d
  have he := inWindow_shown e
  have hw : d.serial.width = e.serial.width := d.width_eq.trans e.width_eq.symm
  calc canonical d e = compare d.seconds e.seconds := Serial.canonical_of_width_eq hw
    _ = compare (d.seconds : Int) e.seconds := (compare_natCast ..).symm
    _ = compare d.zoned.shown.seconds e.zoned.shown.seconds := by
      rw [shown_zoned, shown_zoned, DateTime.seconds_ofSeconds, DateTime.seconds_ofSeconds]
    _ = d.zoned.shown.compareFields e.zoned.shown := DateTime.compare_seconds hd.1 he.1
    _ = compareBytes d.text e.text :=
      (DateTime.compareBytes_stamp (stampable_of_inWindow hd) (stampable_of_inWindow he)).symm

theorem text_eq_iff : d.text = e.text ↔ d.seconds = e.seconds := by
  constructor
  · intro h
    have hsame : canonical d e = canonical d d := by
      rw [canonical_eq_compareBytes, canonical_eq_compareBytes, h]
    have heq : canonical d e = .eq := hsame.trans (isSortOrder.refl d)
    exact equiv_iff.1 ((isSortOrder.eq_iff d e).1 heq)
  · intro h
    rw [text, zoned, h]
    rfl

/-- The canonical order of dates is the order of their texts byte by byte. Dates of one text are of
one value, and to sort dates is to sort their texts. -/
theorem canonical_order_of_texts :
    (∀ d e : DateSerial, canonical d e = compareBytes d.text e.text) ∧
    (∀ d e : DateSerial, d.text = e.text ↔ d.seconds = e.seconds) ∧
    (∀ ds : List DateSerial,
      (CanonicalOrder.sort ds).map text =
        (ds.map text).mergeSort (fun t u => (compareBytes t u).isLE) ∧
      ((CanonicalOrder.sort ds).map text).Perm (ds.map text) ∧
      ((CanonicalOrder.sort ds).map text).Pairwise fun t u => (compareBytes t u).isLE) := by
  have hle : ∀ d e : DateSerial,
      CanonicalOrder.le d e = (compareBytes d.text e.text).isLE := by
    intro d e
    rw [← canonical_eq_compareBytes]
    rfl
  refine ⟨canonical_eq_compareBytes, fun d e => text_eq_iff, ?_⟩
  intro ds
  refine ⟨?_, (CanonicalOrder.sort_perm ds).map text, ?_⟩
  · apply List.map_mergeSort
    exact fun d _ e _ => hle d e
  · apply List.pairwise_map.2
    apply (CanonicalOrder.pairwise_sort isSortOrder ds).imp
    intro d e h
    rwa [← hle]

/-- From the second before the turn of 2000 to the next one every field is carried into. -/
example : compareBytes (ofSeconds 946684799).text (ofSeconds 946684800).text = .lt := by
  decide +kernel

end DateSerial
end SerialNumber
