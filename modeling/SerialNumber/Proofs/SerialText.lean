import Mathlib.Data.List.TakeWhile
import SerialNumber.Outcome
import SerialNumber.Proofs.Stamp
import SerialNumber.Serial.Text

/-! Serials as text. Exactly the numerals of numbers below `2 ^ 32` are read, with zeros or a plus
sign in front or not. In any other text the first byte decides that is no digit or makes the number
too large. What is written reads as the value and is the shortest text that does. -/
namespace SerialNumber

namespace Numeral
variable {limit n k i j : Nat} {b c : UInt8} {bs ds : List UInt8} {cs : List Char}
  {e : NumeralError} {t : String}

instance (b : UInt8) : Decidable (IsDigitByte b) := inferInstanceAs (Decidable (_ ∧ _))

/-- Reads on from `n` byte by byte. -/
def readBytesFrom (limit n : Nat) : List UInt8 → Except NumeralError Nat
  | [] => .ok n
  | b :: bs =>
    if ¬ IsDigitByte b then .error .invalidDigit
    else if limit ≤ n * 10 + (b.toNat - 48) then .error .overflow
    else readBytesFrom limit (n * 10 + (b.toNat - 48)) bs

/-- The byte `b` at `i` is no digit, or the digits up to it lead from `n` to `limit`. -/
def HaltsAt (limit n : Nat) (bs : List UInt8) (i : Nat) (b : UInt8) : Prop :=
  bs[i]? = some b ∧ (¬ IsDigitByte b ∨ limit ≤ continued n (bs.take (i + 1)))

def FirstHalt (limit n : Nat) (bs : List UInt8) (i : Nat) (b : UInt8) : Prop :=
  HaltsAt limit n bs i b ∧ ∀ j < i, ∀ c, ¬ HaltsAt limit n bs j c

def haltError (b : UInt8) : NumeralError := if IsDigitByte b then .overflow else .invalidDigit

theorem continued_cons :
    continued n (b :: bs) = continued (n * 10 + (b.toNat - 48)) bs := by
  rw [continued, List.foldl_cons, continued]

theorem le_continued (n : Nat) (bs : List UInt8) : n ≤ continued n bs := by
  induction bs generalizing n with
  | nil => exact Nat.le_refl n
  | cons b bs ih =>
    have hle := ih (n * 10 + (b.toNat - 48))
    rw [continued_cons]
    omega

theorem continued_take_le (n i : Nat) (bs : List UInt8) :
    continued n (bs.take i) ≤ continued n bs := by
  have happend : continued n bs = continued (continued n (bs.take i)) (bs.drop i) := by
    rw [← continued_append, List.take_append_drop]
  rw [happend]
  exact le_continued _ _

theorem readFrom_eq_readBytesFrom :
    readFrom limit n cs = readBytesFrom limit n (cs.flatMap String.utf8EncodeChar) := by
  induction cs generalizing n with
  | nil => rfl
  | cons c cs ih =>
    rw [List.flatMap_cons, readFrom]
    by_cases hc : c.isDigit
    · have hval : digitValue c = (digitByte c).toNat - 48 := by
        rw [toNat_digitByte hc]
        rfl
      rw [utf8EncodeChar_of_isDigit hc, List.singleton_append, readBytesFrom, hval,
        Nat.mul_comm 10, ih]
      simp [hc, isDigitByte_digitByte hc]
    · obtain ⟨b, bs, hbytes, hb⟩ := head_utf8EncodeChar_of_not_isDigit hc
      rw [hbytes, List.cons_append, readBytesFrom, if_pos hb]
      simp [hc]

theorem haltsAt_zero_iff : HaltsAt limit n (b :: bs) 0 c ↔
    b = c ∧ (¬ IsDigitByte c ∨ limit ≤ n * 10 + (b.toNat - 48)) := by
  rw [HaltsAt, List.getElem?_cons_zero, Option.some.injEq]
  rfl

theorem haltsAt_succ_iff : HaltsAt limit n (b :: bs) (i + 1) c ↔
    HaltsAt limit (n * 10 + (b.toNat - 48)) bs i c := Iff.rfl

theorem firstHalt_zero (h : HaltsAt limit n bs 0 b) : FirstHalt limit n bs 0 b :=
  ⟨h, fun _ hj => absurd hj (Nat.not_lt_zero _)⟩

theorem firstHalt_succ (hb : IsDigitByte b) (hlt : n * 10 + (b.toNat - 48) < limit)
    (h : FirstHalt limit (n * 10 + (b.toNat - 48)) bs i c) :
    FirstHalt limit n (b :: bs) (i + 1) c := by
  refine ⟨haltsAt_succ_iff.2 h.1, ?_⟩
  intro j hj a hhalt
  cases j with
  | zero =>
    obtain ⟨rfl, hbad | hle⟩ := haltsAt_zero_iff.1 hhalt
    · exact hbad hb
    · omega
  | succ j => exact h.2 j (by omega) a (haltsAt_succ_iff.1 hhalt)

theorem firstHalt_unique (hb : FirstHalt limit n bs i b) (hc : FirstHalt limit n bs j c) :
    b = c := by
  rcases Nat.lt_trichotomy i j with hlt | rfl | hgt
  · exact (hc.2 i hlt b hb.1).elim
  · exact Option.some.inj (hb.1.1.symm.trans hc.1.1)
  · exact (hb.2 j hgt c hc.1).elim

theorem not_haltsAt (hbs : ∀ b ∈ bs, IsDigitByte b) (hlt : continued n bs < limit) :
    ¬ HaltsAt limit n bs i b := by
  rintro ⟨hget, hbad | hle⟩
  · exact hbad (hbs b (List.mem_of_getElem? hget))
  · have htake := continued_take_le n (i + 1) bs
    omega

/-- Reading gets through digits that stay below the limit, or the first halt decides. -/
theorem readBytesFrom_cases (hn : n < limit) (bs : List UInt8) :
    (readBytesFrom limit n bs = .ok (continued n bs) ∧ (∀ b ∈ bs, IsDigitByte b) ∧
      continued n bs < limit) ∨
    ∃ i b, readBytesFrom limit n bs = .error (haltError b) ∧ FirstHalt limit n bs i b := by
  induction bs generalizing n with
  | nil => exact Or.inl ⟨rfl, nofun, hn⟩
  | cons b bs ih =>
    rw [readBytesFrom]
    by_cases hb : IsDigitByte b
    · rw [if_neg (not_not_intro hb)]
      by_cases hle : limit ≤ n * 10 + (b.toNat - 48)
      · rw [if_pos hle]
        right
        refine ⟨0, b, ?_, firstHalt_zero (haltsAt_zero_iff.2 ⟨rfl, Or.inr hle⟩)⟩
        rw [haltError, if_pos hb]
      · rw [if_neg hle, continued_cons]
        rcases ih (Nat.lt_of_not_le hle) with ⟨hok, hbs, hlt⟩ | ⟨i, c, herror, hfirst⟩
        · exact Or.inl ⟨hok, List.forall_mem_cons.2 ⟨hb, hbs⟩, hlt⟩
        · exact Or.inr ⟨i + 1, c, herror, firstHalt_succ hb (Nat.lt_of_not_le hle) hfirst⟩
    · rw [if_pos hb]
      right
      refine ⟨0, b, ?_, firstHalt_zero (haltsAt_zero_iff.2 ⟨rfl, Or.inl hb⟩)⟩
      rw [haltError, if_neg hb]

theorem readBytesFrom_eq_ok_iff (hn : n < limit) : readBytesFrom limit n bs = .ok k ↔
    (∀ b ∈ bs, IsDigitByte b) ∧ continued n bs < limit ∧ k = continued n bs := by
  rcases readBytesFrom_cases hn bs with ⟨hok, hbs, hlt⟩ | ⟨i, b, herror, hfirst⟩
  · rw [hok, Except.ok.injEq]
    exact ⟨fun h => ⟨hbs, hlt, h.symm⟩, fun h => h.2.2.symm⟩
  · rw [herror]
    constructor
    · intro h
      contradiction
    · rintro ⟨hbs, hlt, _⟩
      exact (not_haltsAt hbs hlt hfirst.1).elim

theorem readBytesFrom_eq_error_iff (hn : n < limit) : readBytesFrom limit n bs = .error e ↔
    ∃ i b, FirstHalt limit n bs i b ∧ e = haltError b := by
  rcases readBytesFrom_cases hn bs with ⟨hok, hbs, hlt⟩ | ⟨i, b, herror, hfirst⟩
  · rw [hok]
    constructor
    · intro h
      contradiction
    · rintro ⟨i, b, hfirst, _⟩
      exact (not_haltsAt hbs hlt hfirst.1).elim
  · rw [herror, Except.error.injEq]
    constructor
    · rintro rfl
      exact ⟨i, b, hfirst, rfl⟩
    · rintro ⟨j, c, hfirst', rfl⟩
      rw [firstHalt_unique hfirst hfirst']

/-- What follows a plus sign in front, or everything where there is none. -/
def afterPlus (bs : List UInt8) : List UInt8 := if bs.head? = some 43 then bs.tail else bs

/-- The text consists of the digits `ds`, at least one, and perhaps of a plus sign in front. -/
def Spells (t : String) (ds : List UInt8) : Prop :=
  (bytes t = ds ∨ bytes t = 43 :: ds) ∧ ds ≠ [] ∧ ∀ b ∈ ds, IsDigitByte b

theorem afterPlus_plus (bs : List UInt8) : afterPlus (43 :: bs) = bs := rfl

theorem afterPlus_of_ne (h : b ≠ 43) : afterPlus (b :: bs) = b :: bs := by
  rw [afterPlus, if_neg]
  rw [List.head?_cons, Option.some.injEq]
  exact h

theorem afterPlus_of_isDigitByte (h : ∀ b ∈ bs, IsDigitByte b) : afterPlus bs = bs := by
  cases bs with
  | nil => rfl
  | cons b bs =>
    apply afterPlus_of_ne
    rintro rfl
    have hplus := h 43 (List.mem_cons_self ..)
    contradiction

theorem eq_or_eq_cons_afterPlus (bs : List UInt8) :
    bs = afterPlus bs ∨ bs = 43 :: afterPlus bs := by
  cases bs with
  | nil => exact Or.inl rfl
  | cons b bs =>
    by_cases hb : b = 43
    · rw [hb, afterPlus_plus]
      exact Or.inr rfl
    · rw [afterPlus_of_ne hb]
      exact Or.inl rfl

theorem bytes_inj {u : String} : bytes t = bytes u ↔ t = u := by
  constructor
  · intro h
    exact String.toByteArray_inj.1 (ByteArray.ext (Array.toList_inj.1 h))
  · rintro rfl
    rfl

theorem head_utf8EncodeChar_of_ne_plus {c : Char} (h : c ≠ '+') :
    ∃ b bs, String.utf8EncodeChar c = b :: bs ∧ b ≠ 43 := by
  rcases utf8EncodeChar_cases c with ⟨hlt, hbytes⟩ | ⟨_, b, bs, hbytes, hge⟩
  · refine ⟨_, _, hbytes, ?_⟩
    intro hplus
    have hval : (43 : UInt8).toNat = '+'.toNat := rfl
    rw [← hplus, toNat_digitByte_of_lt hlt] at hval
    exact h (Char.toNat_inj.1 hval)
  · refine ⟨b, bs, hbytes, ?_⟩
    rintro rfl
    contradiction

theorem read_lone_plus : read limit "+".toList = .error .invalidDigit := rfl

theorem read_plus (h : cs ≠ []) : read limit ('+' :: cs) = readFrom limit 0 cs := by
  cases cs with
  | nil => contradiction
  | cons c cs => rfl

theorem read_of_ne_plus {c : Char} (h : c ≠ '+') :
    read limit (c :: cs) = readFrom limit 0 (c :: cs) := by
  unfold read
  split
  · contradiction
  · rename_i hplus
    exact (h (List.cons_eq_cons.1 hplus).1).elim
  · rename_i hplus
    exact (h (List.cons_eq_cons.1 hplus).1).elim
  · rfl

/-- Apart from the two texts that hold no digit, what follows the plus sign is read. -/
theorem read_eq_readBytesFrom (h : t ≠ "") (h' : t ≠ "+") :
    read limit t.toList = readBytesFrom limit 0 (afterPlus (bytes t)) := by
  have hne : t.toList ≠ [] := fun he => h (String.toList_inj.1 he)
  have hne' : t.toList ≠ ['+'] := fun he => h' (String.toList_inj.1 he)
  rw [bytes_eq_flatMap]
  cases hcs : t.toList with
  | nil => contradiction
  | cons c cs =>
    by_cases hc : c = '+'
    · subst hc
      have hplus : ('+' :: cs).flatMap String.utf8EncodeChar =
          43 :: cs.flatMap String.utf8EncodeChar := rfl
      have hcs' : cs ≠ [] := by
        rintro rfl
        contradiction
      rw [hplus, afterPlus_plus, read_plus hcs', readFrom_eq_readBytesFrom]
    · obtain ⟨b, bs, hbytes, hb⟩ := head_utf8EncodeChar_of_ne_plus hc
      rw [read_of_ne_plus hc, readFrom_eq_readBytesFrom, List.flatMap_cons, hbytes,
        List.cons_append, afterPlus_of_ne hb]

theorem afterPlus_bytes_ne_nil (h : t ≠ "") (h' : t ≠ "+") : afterPlus (bytes t) ≠ [] := by
  intro hnil
  rcases eq_or_eq_cons_afterPlus (bytes t) with hbytes | hbytes
  · rw [hnil] at hbytes
    exact h (bytes_inj.1 (hbytes.trans rfl))
  · rw [hnil] at hbytes
    exact h' (bytes_inj.1 (hbytes.trans rfl))

theorem spells_iff : Spells t ds ↔
    ds = afterPlus (bytes t) ∧ ds ≠ [] ∧ ∀ b ∈ ds, IsDigitByte b := by
  constructor
  · rintro ⟨hbytes, hne, hds⟩
    refine ⟨?_, hne, hds⟩
    rcases hbytes with hbytes | hbytes
    · rw [hbytes, afterPlus_of_isDigitByte hds]
    · rw [hbytes, afterPlus_plus]
  · rintro ⟨rfl, hne, hds⟩
    exact ⟨eq_or_eq_cons_afterPlus _, hne, hds⟩

theorem ne_of_spells (h : Spells t ds) : t ≠ "" ∧ t ≠ "+" := by
  obtain ⟨rfl, hne, _⟩ := spells_iff.1 h
  constructor
  · rintro rfl
    exact hne rfl
  · rintro rfl
    exact hne rfl

/-- A numeral is read as its number, or is too large. -/
theorem read_of_spells (hlimit : 0 < limit) (h : Spells t ds) : read limit t.toList =
    if byteValue ds < limit then .ok (byteValue ds) else .error .overflow := by
  obtain ⟨hne, hne'⟩ := ne_of_spells h
  obtain ⟨rfl, _, hdigits⟩ := spells_iff.1 h
  rw [read_eq_readBytesFrom hne hne']
  rcases readBytesFrom_cases hlimit (afterPlus (bytes t)) with
    ⟨hok, _, hlt⟩ | ⟨i, b, herror, hfirst⟩
  · exact hok.trans (if_pos hlt).symm
  · have hb : IsDigitByte b := hdigits b (List.mem_of_getElem? hfirst.1.1)
    have hge : ¬ byteValue (afterPlus (bytes t)) < limit :=
      fun hlt => not_haltsAt hdigits hlt hfirst.1
    rw [herror, haltError, if_pos hb, if_neg hge]

theorem read_eq_ok_iff (hlimit : 0 < limit) : read limit t.toList = .ok k ↔
    ∃ ds, Spells t ds ∧ byteValue ds < limit ∧ k = byteValue ds := by
  constructor
  · intro h
    have hne : t ≠ "" := by
      rintro rfl
      contradiction
    have hne' : t ≠ "+" := by
      rintro rfl
      contradiction
    rw [read_eq_readBytesFrom hne hne', readBytesFrom_eq_ok_iff hlimit] at h
    obtain ⟨hds, hlt, hk⟩ := h
    exact ⟨_, spells_iff.2 ⟨rfl, afterPlus_bytes_ne_nil hne hne', hds⟩, hlt, hk⟩
  · rintro ⟨ds, hds, hlt, rfl⟩
    rw [read_of_spells hlimit hds, if_pos hlt]

theorem read_eq_empty_iff (hlimit : 0 < limit) :
    read limit t.toList = .error .empty ↔ t = "" := by
  constructor
  · intro h
    by_contra hne
    have hne' : t ≠ "+" := by
      rintro rfl
      rw [read_lone_plus, Except.error.injEq] at h
      contradiction
    rw [read_eq_readBytesFrom hne hne', readBytesFrom_eq_error_iff hlimit] at h
    obtain ⟨i, b, _, herror⟩ := h
    rw [haltError] at herror
    split at herror <;> contradiction
  · rintro rfl
    rfl

theorem read_eq_error_iff (hlimit : 0 < limit) (h : t ≠ "") (h' : t ≠ "+") :
    read limit t.toList = .error e ↔
      ∃ i b, FirstHalt limit 0 (afterPlus (bytes t)) i b ∧ e = haltError b := by
  rw [read_eq_readBytesFrom h h', readBytesFrom_eq_error_iff hlimit]

/-- Digits without the zeros in front, of which one is kept where there is nothing else. -/
def withoutZeros (ds : List UInt8) : List UInt8 :=
  if byteValue ds = 0 then [48] else ds.dropWhile (· == 48)

theorem digitByte_digitChar (h : IsDigitByte b) :
    digitByte (Nat.digitChar (b.toNat - 48)) = b := by
  obtain ⟨hge, hle⟩ := h
  have hval : (digitByte (Nat.digitChar (b.toNat - 48))).toNat = 48 + (b.toNat - 48) :=
    toNat_digitByte_digitChar (by omega)
  apply UInt8.toNat_inj.1
  omega

theorem byteValue_eq_zero_iff (h : ∀ b ∈ ds, IsDigitByte b) :
    byteValue ds = 0 ↔ ds.dropWhile (· == 48) = [] := by
  rw [List.dropWhile_eq_nil_iff]
  induction ds using List.reverseRecOn with
  | nil => simp [byteValue, continued]
  | append_singleton ds b ih =>
    have hds := ih fun c hc => h c (List.mem_append_left _ hc)
    obtain ⟨hge, _⟩ := h b (by simp)
    have hzero : (48 : UInt8).toNat = 48 := rfl
    rw [byteValue_append_singleton, List.forall_mem_append, ← hds, List.forall_mem_singleton,
      beq_iff_eq, ← UInt8.toNat_inj]
    omega

/-- The shortest digits of a number are those of any numeral of it without the zeros in front. -/
theorem toDigits_byteValue (h : ∀ b ∈ ds, IsDigitByte b) (hne : ds ≠ []) :
    (Nat.toDigits 10 (byteValue ds)).map digitByte = withoutZeros ds := by
  induction ds using List.reverseRecOn with
  | nil => exact (hne rfl).elim
  | append_singleton ds b ih =>
    have hds : ∀ c ∈ ds, IsDigitByte c := fun c hc => h c (List.mem_append_left _ hc)
    have hb : IsDigitByte b := h b (by simp)
    have hge : 48 ≤ b.toNat := hb.1
    have hle : b.toNat ≤ 57 := hb.2
    have hvalue : byteValue (ds ++ [b]) = byteValue ds * 10 + (b.toNat - 48) :=
      byteValue_append_singleton
    rw [withoutZeros, List.dropWhile_append, hvalue]
    -- Where the digits before the last one are all zeros, the last one is the whole number.
    by_cases hzero : byteValue ds = 0
    · rw [hzero, (byteValue_eq_zero_iff hds).1 hzero, Nat.zero_mul, Nat.zero_add,
        Nat.toDigits_of_lt_base (by omega), List.map_singleton, digitByte_digitChar hb]
      by_cases hb48 : b = 48
      · rw [hb48]
        rfl
      · have hdigit : b.toNat - 48 ≠ 0 := by
          have h48 : (48 : UInt8).toNat = 48 := rfl
          have hnat := mt UInt8.toNat_inj.1 hb48
          omega
        rw [if_neg hdigit, List.isEmpty_nil, if_pos rfl, List.dropWhile_cons_of_neg]
        simpa using hb48
    · have hne' : ds ≠ [] := by
        rintro rfl
        exact hzero rfl
      have hdrop : ds.dropWhile (· == 48) ≠ [] := mt (byteValue_eq_zero_iff hds).2 hzero
      have hdiv : (byteValue ds * 10 + (b.toNat - 48)) / 10 = byteValue ds := by omega
      have hmod : (byteValue ds * 10 + (b.toNat - 48)) % 10 = b.toNat - 48 := by omega
      rw [Nat.toDigits_of_base_le (by decide) (by omega), hdiv, hmod, List.map_append,
        ih hds hne', List.map_singleton, digitByte_digitChar hb, withoutZeros, if_neg hzero,
        if_neg (by omega), if_neg]
      rwa [List.isEmpty_iff]

end Numeral

namespace Serial
variable {s r : Serial} {n : Nat} {t : String} {ds : List UInt8} {e : NumeralError}

/-- The serial of 32 bits and the value `n`, to which nothing has been added. -/
def IsFresh (s : Serial) (n : Nat) : Prop := s.width.bits = 32 ∧ s.value = n ∧ s.chain = none

theorem isFresh_iff (h : n < 4294967296) : s.IsFresh n ↔ s = ofInt .standard n := by
  constructor
  · rintro ⟨hw, rfl, hchain⟩
    have hwidth : s.width = .standard := Width.ext hw
    rw [← hwidth, ofInt_value_self hchain]
  · rintro rfl
    exact ⟨rfl, ofInt_value_of_lt h, rfl⟩

theorem ofText_eq_map (t : String) : ofText t =
    (Numeral.read Width.standard.modulus t.toList).map fun n : Nat => ofInt .standard n := by
  rw [ofText]
  cases Numeral.read Width.standard.modulus t.toList <;> rfl

theorem ofText_eq_ok_iff : ofText t = .ok s ↔
    ∃ ds, Numeral.Spells t ds ∧ Numeral.byteValue ds < 4294967296 ∧
      s.IsFresh (Numeral.byteValue ds) := by
  rw [ofText_eq_map, Outcome.map_eq_ok_iff]
  constructor
  · rintro ⟨n, hn, rfl⟩
    obtain ⟨ds, hds, hlt, rfl⟩ := (Numeral.read_eq_ok_iff Width.standard.modulus_pos).1 hn
    exact ⟨ds, hds, hlt, (isFresh_iff hlt).2 rfl⟩
  · rintro ⟨ds, hds, hlt, hs⟩
    refine ⟨_, (Numeral.read_eq_ok_iff Width.standard.modulus_pos).2 ⟨ds, hds, hlt, rfl⟩, ?_⟩
    exact ((isFresh_iff hlt).1 hs).symm

theorem ofText_eq_error_iff :
    ofText t = .error e ↔ Numeral.read Width.standard.modulus t.toList = .error e := by
  rw [ofText_eq_map]
  exact Outcome.map_eq_error_iff

theorem toList_text (s : Serial) : s.text.toList = Nat.toDigits 10 s.value := Nat.toList_repr

theorem isDigit_of_mem_text {c : Char} (h : c ∈ s.text.toList) : c.isDigit := by
  rw [toList_text] at h
  exact Nat.isDigit_of_mem_toDigits (by decide) (by decide) h

theorem bytes_text (s : Serial) :
    Numeral.bytes s.text = (Nat.toDigits 10 s.value).map Numeral.digitByte := by
  rw [Numeral.bytes_eq_map fun c hc => isDigit_of_mem_text hc, toList_text]

/-- What is written is a numeral of the value. -/
theorem spells_text (s : Serial) :
    Numeral.Spells s.text (Numeral.bytes s.text) ∧
      Numeral.byteValue (Numeral.bytes s.text) = s.value := by
  have hdigits : ∀ c ∈ s.text.toList, c.isDigit := fun c hc => isDigit_of_mem_text hc
  refine ⟨⟨Or.inl rfl, ?_, Numeral.forall_isDigitByte_iff.2 hdigits⟩, ?_⟩
  · rw [bytes_text]
    exact mt List.map_eq_nil_iff.1 Nat.toDigits_ne_nil
  · rw [Numeral.bytes_eq_map hdigits, Numeral.byteValue_map hdigits, toList_text]
    exact Nat.ofDigitChars_ten_toDigits

theorem exists_ofText_text (h : s.value < 4294967296) :
    ∃ r, ofText s.text = .ok r ∧ r.IsFresh s.value := by
  obtain ⟨hspells, hvalue⟩ := spells_text s
  have hfresh : (ofInt .standard s.value).IsFresh s.value := (isFresh_iff h).2 rfl
  rw [← hvalue] at h hfresh
  exact ⟨_, ofText_eq_ok_iff.2 ⟨_, hspells, h, hfresh⟩, hvalue ▸ hfresh⟩

theorem ofText_text_of_le (h : 4294967296 ≤ s.value) : ofText s.text = .error .overflow := by
  obtain ⟨hspells, hvalue⟩ := spells_text s
  have hge : ¬ Numeral.byteValue (Numeral.bytes s.text) < Width.standard.modulus := by
    rw [hvalue]
    exact Nat.not_lt_of_le h
  rw [ofText_eq_error_iff, Numeral.read_of_spells Width.standard.modulus_pos hspells, if_neg hge]

theorem equiv_of_ofText_text_iff : (∃ r, ofText s.text = .ok r ∧ r ≈ s) ↔ s.width.bits = 32 := by
  constructor
  · rintro ⟨r, hr, hrs⟩
    obtain ⟨ds, _, _, hbits, _⟩ := ofText_eq_ok_iff.1 hr
    rw [← (equiv_iff.1 hrs).1, hbits]
  · intro hw
    have hwidth : s.width = .standard := Width.ext hw
    have hlt := s.value_lt
    rw [hwidth] at hlt
    obtain ⟨r, hr, hbits, hvalue, _⟩ := exists_ofText_text hlt
    exact ⟨r, hr, equiv_iff.2 ⟨Width.ext (hbits.trans hw.symm), hvalue⟩⟩

theorem bytes_text_of_ofText (h : ofText t = .ok s) (hds : Numeral.Spells t ds) :
    Numeral.bytes s.text = Numeral.withoutZeros ds := by
  obtain ⟨ds', hds', _, _, hvalue, _⟩ := ofText_eq_ok_iff.1 h
  obtain ⟨rfl, _⟩ := Numeral.spells_iff.1 hds'
  obtain ⟨rfl, hne, hdigits⟩ := Numeral.spells_iff.1 hds
  rw [bytes_text, hvalue, Numeral.toDigits_byteValue hdigits hne]

/-- The texts that are read are the numerals of numbers below `2 ^ 32`. In any other text that is
not empty and holds more than a plus sign the first byte decides that is no digit or takes the
number to `2 ^ 32`. What is written is read again if the value is a number below that, and the text
of what was read is the numeral without the zeros in front. -/
theorem text_read_and_written :
    (∀ t s, ofText t = .ok s ↔ ∃ ds, Numeral.Spells t ds ∧ Numeral.byteValue ds < 4294967296 ∧
      s.IsFresh (Numeral.byteValue ds)) ∧
    (∀ t, ofText t = .error .empty ↔ t = "") ∧
    (∀ t, t = "+" ∨ t = "-" → ofText t = .error .invalidDigit) ∧
    (∀ t e, t ≠ "" → t ≠ "+" → (ofText t = .error e ↔
      ∃ i b, Numeral.FirstHalt 4294967296 0 (Numeral.afterPlus (Numeral.bytes t)) i b ∧
        e = Numeral.haltError b)) ∧
    (∀ s : Serial,
      (s.value < 4294967296 → ∃ r, ofText s.text = .ok r ∧ r.IsFresh s.value) ∧
      (4294967296 ≤ s.value → ofText s.text = .error .overflow) ∧
      ((∃ r, ofText s.text = .ok r ∧ r ≈ s) ↔ s.width.bits = 32)) ∧
    (∀ t s ds, ofText t = .ok s → Numeral.Spells t ds →
      Numeral.bytes s.text = Numeral.withoutZeros ds) := by
  refine ⟨fun t s => ofText_eq_ok_iff, ?_, ?_, ?_, ?_, fun t s ds => bytes_text_of_ofText⟩
  · intro t
    rw [ofText_eq_error_iff, Numeral.read_eq_empty_iff Width.standard.modulus_pos]
  · rintro t (rfl | rfl) <;> rfl
  · intro t e h h'
    rw [ofText_eq_error_iff, Numeral.read_eq_error_iff Width.standard.modulus_pos h h',
      Width.standard_modulus]
  · intro s
    exact ⟨exists_ofText_text, ofText_text_of_le, equiv_of_ofText_text_iff⟩

/-- A plus sign and zeros in front are read over. The byte that makes the number too large comes
before the one that is no digit, or after it. A serial of 64 bits may be too large to be read
again. -/
theorem text_read_and_written_beyond_the_end :
    (∃ s, ofText "+007" = .ok s ∧ Numeral.bytes s.text = [55]) ∧
    (∃ i b, Numeral.FirstHalt 4294967296 0
        (Numeral.afterPlus (Numeral.bytes "4294967296x")) i b ∧
      .overflow = Numeral.haltError b) ∧
    (∃ i b, Numeral.FirstHalt 4294967296 0
        (Numeral.afterPlus (Numeral.bytes "429496729x6")) i b ∧
      .invalidDigit = Numeral.haltError b) ∧
    (∃ r, ofText (ofInt { bits := 64 } 4294967295).text = .ok r ∧ r.IsFresh 4294967295) ∧
    ofText (ofInt { bits := 64 } 4294967296).text = .error .overflow ∧
    ofText "-" = .error .invalidDigit := by
  obtain ⟨_, _, hsign, herror, hwritten, hagain⟩ := text_read_and_written
  refine ⟨⟨_, rfl, ?_⟩, ?_, ?_, ?_, ?_, hsign _ (Or.inr rfl)⟩
  · exact hagain "+007" _ [48, 48, 55] rfl ⟨Or.inr rfl, by decide, by simp [Numeral.IsDigitByte]⟩
  · exact (herror "4294967296x" .overflow (by decide) (by decide)).1 rfl
  · exact (herror "429496729x6" .invalidDigit (by decide) (by decide)).1 rfl
  · exact (hwritten (ofInt { bits := 64 } 4294967295)).1 (by decide)
  · exact (hwritten (ofInt { bits := 64 } 4294967296)).2.1 (by decide)

end Serial
end SerialNumber
