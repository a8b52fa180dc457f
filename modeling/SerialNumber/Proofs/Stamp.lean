import Mathlib.Algebra.Order.Ring.Nat
import Mathlib.Data.List.Induction
import SerialNumber.Calendar.Stamp
import SerialNumber.Proofs.DayNumber

/-! Fourteen digits and what they name. Reading takes exactly what writing gives for a valid time of
the years from 0 to 9999, and it may as well go by bytes as by characters. -/
namespace SerialNumber

namespace Numeral
variable {cs : List Char} {c : Char} {k n : Nat} {t : String}

theorem isDigit_digitChar_mod (n : Nat) : (Nat.digitChar (n % 10)).isDigit := by
  rw [Nat.isDigit_digitChar, decide_eq_true_eq]
  exact Nat.mod_lt _ (by decide)

theorem isDigit_of_mem_fixed (h : c ∈ fixed k n) : c.isDigit := by
  induction k generalizing n with
  | zero => simp [fixed] at h
  | succ k ih =>
    rcases List.mem_append.1 h with h | h
    · exact ih h
    · rw [List.mem_singleton.1 h]
      exact isDigit_digitChar_mod n

theorem value_append_singleton : value (cs ++ [c]) = 10 * value cs + digitValue c := by
  rw [value, Nat.ofDigitChars_append, Nat.ofDigitChars_cons, Nat.ofDigitChars_nil]
  rfl

theorem digitValue_digitChar (h : n < 10) : digitValue (Nat.digitChar n) = n :=
  Nat.toNat_digitChar_sub_48_of_lt_ten h

theorem digitValue_lt (h : c.isDigit) : digitValue c < 10 := by
  obtain ⟨_, hle⟩ := Char.isDigit_iff_toNat.1 h
  have h9 : '9'.toNat = 57 := rfl
  have h0 : '0'.toNat = 48 := rfl
  rw [digitValue]
  omega

theorem digitChar_digitValue (h : c.isDigit) : Nat.digitChar (digitValue c) = c := by
  have hlt := digitValue_lt h
  have hval := digitValue_digitChar hlt
  have hdigit : (Nat.digitChar (digitValue c)).isDigit := by
    rw [Nat.isDigit_digitChar, decide_eq_true_eq]
    exact hlt
  obtain ⟨hge, _⟩ := Char.isDigit_iff_toNat.1 h
  obtain ⟨hge', _⟩ := Char.isDigit_iff_toNat.1 hdigit
  generalize Nat.digitChar (digitValue c) = d at hval hge' ⊢
  apply Char.toNat_inj.1
  rw [digitValue, digitValue] at hval
  omega

/-- What was written in so many places reads as the number, less what did not fit. -/
theorem value_fixed (k n : Nat) : value (fixed k n) = n % 10 ^ k := by
  induction k generalizing n with
  | zero => simp [fixed, value, Nat.mod_one]
  | succ k ih =>
    rw [fixed, value_append_singleton, ih, digitValue_digitChar (Nat.mod_lt _ (by decide)),
      Nat.pow_succ', Nat.mod_mul]
    omega

theorem fixed_value (h : ∀ c ∈ cs, c.isDigit) : fixed cs.length (value cs) = cs := by
  induction cs using List.reverseRecOn with
  | nil => rfl
  | append_singleton cs c ih =>
    have hc : c.isDigit := h c (by simp)
    have hlt := digitValue_lt hc
    have hdiv : (10 * value cs + digitValue c) / 10 = value cs := by omega
    have hmod : (10 * value cs + digitValue c) % 10 = digitValue c := by omega
    rw [List.length_append, List.length_singleton, fixed, value_append_singleton, hdiv, hmod,
      ih (fun d hd => h d (List.mem_append_left _ hd)), digitChar_digitValue hc]

theorem value_lt (h : ∀ c ∈ cs, c.isDigit) : value cs < 10 ^ cs.length := by
  have hval := value_fixed cs.length (value cs)
  rw [fixed_value h] at hval
  rw [hval]
  exact Nat.mod_lt _ (Nat.pow_pos (by decide))

/-- The bytes that a text is made of. -/
def bytes (t : String) : List UInt8 := t.toUTF8.data.toList

def IsDigitByte (b : UInt8) : Prop := 48 ≤ b.toNat ∧ b.toNat ≤ 57

/-- The number that digits lead to from `n`, which those before them stand for. -/
def continued (n : Nat) (bs : List UInt8) : Nat := bs.foldl (fun n b => n * 10 + (b.toNat - 48)) n

/-- The number that digits stand for, read byte by byte. -/
def byteValue (bs : List UInt8) : Nat := continued 0 bs

def digitByte (c : Char) : UInt8 := UInt8.ofNat c.toNat

theorem bytes_eq_flatMap (t : String) : bytes t = t.toList.flatMap String.utf8EncodeChar := by
  rw [bytes, String.toUTF8, ← String.utf8Encode_toList, List.utf8Encode,
    List.toList_data_toByteArray]

theorem length_bytes (t : String) : (bytes t).length = t.utf8ByteSize := rfl

theorem toNat_digitByte_of_lt (h : c.toNat < 128) : (digitByte c).toNat = c.toNat := by
  rw [digitByte, UInt8.toNat_ofNat']
  omega

theorem toNat_digitByte (h : c.isDigit) : (digitByte c).toNat = c.toNat := by
  obtain ⟨_, hle⟩ := Char.isDigit_iff_toNat.1 h
  have h9 : '9'.toNat = 57 := rfl
  exact toNat_digitByte_of_lt (by omega)

theorem isDigitByte_digitByte (h : c.isDigit) : IsDigitByte (digitByte c) := by
  rw [IsDigitByte, toNat_digitByte h]
  exact Char.isDigit_iff_toNat.1 h

theorem toNat_digitByte_digitChar (h : n < 10) :
    (digitByte (Nat.digitChar n)).toNat = 48 + n := by
  have hdigit : (Nat.digitChar n).isDigit := by
    rw [Nat.isDigit_digitChar, decide_eq_true_eq]
    exact h
  have hval := digitValue_digitChar h
  have h0 : '0'.toNat = 48 := rfl
  obtain ⟨hge, _⟩ := Char.isDigit_iff_toNat.1 hdigit
  rw [toNat_digitByte hdigit]
  rw [digitValue] at hval
  omega

/-- A character is one byte, its own number, or begins with a byte beyond those. -/
theorem utf8EncodeChar_cases (c : Char) :
    (c.toNat < 128 ∧ String.utf8EncodeChar c = [digitByte c]) ∨
    (128 ≤ c.toNat ∧ ∃ b bs, String.utf8EncodeChar c = b :: bs ∧ 128 ≤ b.toNat) := by
  have hval : c.val.toNat = c.toNat := rfl
  rw [String.utf8EncodeChar]
  simp only [hval]
  split
  · exact Or.inl ⟨by omega, rfl⟩
  · right
    refine ⟨by omega, ?_⟩
    split
    · refine ⟨_, _, rfl, ?_⟩
      rw [UInt8.toNat_ofNat']
      omega
    · split
      · refine ⟨_, _, rfl, ?_⟩
        rw [UInt8.toNat_ofNat']
        omega
      · refine ⟨_, _, rfl, ?_⟩
        rw [UInt8.toNat_ofNat']
        omega

theorem utf8EncodeChar_of_isDigit (h : c.isDigit) : String.utf8EncodeChar c = [digitByte c] := by
  obtain ⟨_, hle⟩ := Char.isDigit_iff_toNat.1 h
  have h9 : '9'.toNat = 57 := rfl
  rcases utf8EncodeChar_cases c with ⟨_, hbytes⟩ | ⟨hge, _⟩
  · exact hbytes
  · omega

/-- A character that is no digit begins with a byte that is none. -/
theorem head_utf8EncodeChar_of_not_isDigit (h : ¬ c.isDigit) :
    ∃ b bs, String.utf8EncodeChar c = b :: bs ∧ ¬ IsDigitByte b := by
  have h0 : '0'.toNat = 48 := rfl
  have h9 : '9'.toNat = 57 := rfl
  rcases utf8EncodeChar_cases c with ⟨hlt, hbytes⟩ | ⟨_, b, bs, hbytes, hge⟩
  · refine ⟨_, _, hbytes, ?_⟩
    rw [Char.isDigit_iff_toNat] at h
    rw [IsDigitByte, toNat_digitByte_of_lt hlt]
    omega
  · refine ⟨b, bs, hbytes, ?_⟩
    rw [IsDigitByte]
    omega

theorem isDigit_of_utf8EncodeChar (h : ∀ b ∈ String.utf8EncodeChar c, IsDigitByte b) :
    c.isDigit := by
  by_contra hc
  obtain ⟨b, bs, hbytes, hb⟩ := head_utf8EncodeChar_of_not_isDigit hc
  rw [hbytes] at h
  exact hb (h b (List.mem_cons_self ..))

theorem flatMap_utf8EncodeChar (h : ∀ c ∈ cs, c.isDigit) :
    cs.flatMap String.utf8EncodeChar = cs.map digitByte := by
  induction cs with
  | nil => rfl
  | cons c cs ih =>
    rw [List.flatMap_cons, utf8EncodeChar_of_isDigit (h c (List.mem_cons_self ..)),
      ih (fun d hd => h d (List.mem_cons_of_mem _ hd)), List.map_cons, List.singleton_append]

theorem bytes_eq_map (h : ∀ c ∈ t.toList, c.isDigit) : bytes t = t.toList.map digitByte := by
  rw [bytes_eq_flatMap, flatMap_utf8EncodeChar h]

theorem forall_isDigitByte_iff :
    (∀ b ∈ bytes t, IsDigitByte b) ↔ ∀ c ∈ t.toList, c.isDigit := by
  constructor
  · intro h c hc
    apply isDigit_of_utf8EncodeChar
    intro b hb
    apply h
    rw [bytes_eq_flatMap]
    exact List.mem_flatMap.2 ⟨c, hc, hb⟩
  · intro h b hb
    rw [bytes_eq_map h] at hb
    obtain ⟨c, hc, rfl⟩ := List.mem_map.1 hb
    exact isDigitByte_digitByte (h c hc)

theorem continued_append {n : Nat} {bs bs' : List UInt8} :
    continued n (bs ++ bs') = continued (continued n bs) bs' := List.foldl_append

theorem byteValue_append_singleton {bs : List UInt8} {b : UInt8} :
    byteValue (bs ++ [b]) = byteValue bs * 10 + (b.toNat - 48) := by
  rw [byteValue, continued_append]
  rfl

theorem byteValue_map (h : ∀ c ∈ cs, c.isDigit) : byteValue (cs.map digitByte) = value cs := by
  induction cs using List.reverseRecOn with
  | nil => rfl
  | append_singleton cs c ih =>
    have hcs := ih (fun d hd => h d (List.mem_append_left _ hd))
    rw [List.map_append, List.map_singleton, byteValue_append_singleton, hcs,
      value_append_singleton, digitValue, Nat.mul_comm 10, toNat_digitByte (h c (by simp))]
    rfl

theorem byteValue_lt {bs : List UInt8} (h : ∀ b ∈ bs, IsDigitByte b) :
    byteValue bs < 10 ^ bs.length := by
  induction bs using List.reverseRecOn with
  | nil => decide
  | append_singleton bs b ih =>
    have hlt := ih (fun c hc => h c (List.mem_append_left _ hc))
    obtain ⟨_, hle⟩ := h b (by simp)
    rw [byteValue_append_singleton, List.length_append, List.length_singleton, Nat.pow_succ]
    omega

theorem utf8ByteSize_of_isDigit (h : ∀ c ∈ t.toList, c.isDigit) :
    t.utf8ByteSize = t.toList.length := by
  rw [← length_bytes, bytes_eq_map h, List.length_map]

end Numeral

namespace DateTime
variable {t u : DateTime} {cs : List Char} {text : String}

/-- The times that fourteen digits can name. -/
def Stampable (t : DateTime) : Prop :=
  t.Valid ∧ t.nano = 0 ∧ 0 ≤ t.date.year ∧ t.date.year ≤ 9999

/-- The fields of a stamp, read byte by byte. -/
def stampBytes (bs : List UInt8) : DateTime where
  date := ⟨Numeral.byteValue (bs.take 4), field 4, field 6⟩
  clock := ⟨field 8, field 10, field 12⟩
  nano := 0
where
  field (start : Nat) : Nat := Numeral.byteValue ((bs.drop start).take 2)

theorem toList_stamp (t : DateTime) : t.stamp.toList =
    Numeral.fixed 4 t.date.year.toNat ++ Numeral.fixed 2 t.date.month ++
    Numeral.fixed 2 t.date.day ++ Numeral.fixed 2 t.clock.hour ++
    Numeral.fixed 2 t.clock.minute ++ Numeral.fixed 2 t.clock.second := by
  rw [stamp, String.toList_ofList]

theorem length_stamp (t : DateTime) : t.stamp.toList.length = 14 := by
  simp [toList_stamp]

theorem isDigit_of_mem_stamp {c : Char} (h : c ∈ t.stamp.toList) : c.isDigit := by
  simp only [toList_stamp, List.mem_append, or_assoc] at h
  rcases h with h | h | h | h | h | h <;> exact Numeral.isDigit_of_mem_fixed h

section slices
variable {y mo d h mi se : List Char} (hy : y.length = 4) (hmo : mo.length = 2) (hd : d.length = 2)
  (hh : h.length = 2) (hmi : mi.length = 2) (hse : se.length = 2)
include hy hmo hd hh hmi hse

theorem stampFields_append : stampFields (y ++ mo ++ d ++ h ++ mi ++ se) =
    ⟨⟨Numeral.value y, Numeral.value mo, Numeral.value d⟩,
      ⟨Numeral.value h, Numeral.value mi, Numeral.value se⟩, 0⟩ := by
  simp [stampFields, stampFields.field, List.drop_append, hy, hmo, hd, hh, hmi, hse,
    List.take_of_length_le, List.drop_eq_nil_of_le]

end slices

theorem exists_slices (hlen : cs.length = 14) : ∃ y mo d h mi se : List Char,
    (y.length = 4 ∧ mo.length = 2 ∧ d.length = 2 ∧ h.length = 2 ∧ mi.length = 2 ∧ se.length = 2) ∧
      cs = y ++ mo ++ d ++ h ++ mi ++ se := by
  refine ⟨cs.take 4, (cs.drop 4).take 2, (cs.drop 6).take 2, (cs.drop 8).take 2,
    (cs.drop 10).take 2, (cs.drop 12).take 2, by simp [hlen], ?_⟩
  simp only [← List.take_add]
  rw [List.take_of_length_le (Nat.le_of_eq hlen)]

theorem stampFields_stamp (h : t.Stampable) : stampFields t.stamp.toList = t := by
  obtain ⟨⟨⟨hm, hm', hd, hd'⟩, hhour, hmin, hsec⟩, hnano, hyear, hyear'⟩ := h
  obtain ⟨_, hlen⟩ := Date.monthLength_bounds (y := t.date.year) hm hm'
  obtain ⟨⟨year, month, day⟩, ⟨hour, minute, second⟩, nano⟩ := t
  simp only at hm hm' hd hd' hhour hmin hsec hnano hyear hyear' hlen
  rw [toList_stamp, stampFields_append (by simp) (by simp) (by simp) (by simp) (by simp) (by simp)]
  simp only [Numeral.value_fixed, DateTime.mk.injEq, Date.mk.injEq, Clock.mk.injEq]
  omega

theorem fixed_value_of_length {k : Nat} (hlen : cs.length = k) (h : ∀ c ∈ cs, c.isDigit) :
    Numeral.fixed k (Numeral.value cs) = cs := by
  rw [← hlen, Numeral.fixed_value h]

/-- Fourteen digits are the stamp of the fields that they name, valid or not. -/
theorem toList_stamp_stampFields (hlen : cs.length = 14) (hcs : ∀ c ∈ cs, c.isDigit) :
    (stampFields cs).stamp.toList = cs := by
  obtain ⟨y, mo, d, h, mi, se, ⟨hy, hmo, hd, hh, hmi, hse⟩, rfl⟩ := exists_slices hlen
  rw [stampFields_append hy hmo hd hh hmi hse, toList_stamp]
  simp only [List.mem_append] at hcs
  simp only [Int.toNat_natCast]
  rw [fixed_value_of_length hy (fun c hc => hcs c (by simp [hc])),
    fixed_value_of_length hmo (fun c hc => hcs c (by simp [hc])),
    fixed_value_of_length hd (fun c hc => hcs c (by simp [hc])),
    fixed_value_of_length hh (fun c hc => hcs c (by simp [hc])),
    fixed_value_of_length hmi (fun c hc => hcs c (by simp [hc])),
    fixed_value_of_length hse (fun c hc => hcs c (by simp [hc]))]

theorem year_stampFields_le (hlen : cs.length = 14) (hcs : ∀ c ∈ cs, c.isDigit) :
    0 ≤ (stampFields cs).date.year ∧ (stampFields cs).date.year ≤ 9999 := by
  have hdigits : ∀ c ∈ cs.take 4, c.isDigit := fun c hc => hcs c (List.mem_of_mem_take hc)
  have hlt := Numeral.value_lt hdigits
  have hfour : (cs.take 4).length = 4 := by simp [hlen]
  rw [hfour] at hlt
  have hyear : (stampFields cs).date.year = Numeral.value (cs.take 4) := rfl
  omega

theorem stampBytes_map (hcs : ∀ c ∈ cs, c.isDigit) :
    stampBytes (cs.map Numeral.digitByte) = stampFields cs := by
  have hfield : ∀ start, stampBytes.field (cs.map Numeral.digitByte) start =
      stampFields.field cs start := by
    intro start
    rw [stampBytes.field, stampFields.field, ← List.map_drop, ← List.map_take]
    apply Numeral.byteValue_map
    intro c hc
    exact hcs c (List.mem_of_mem_drop (List.mem_of_mem_take hc))
  have hyear : Numeral.byteValue ((cs.map Numeral.digitByte).take 4) =
      Numeral.value (cs.take 4) := by
    rw [← List.map_take]
    exact Numeral.byteValue_map (fun c hc => hcs c (List.mem_of_mem_take hc))
  simp only [stampBytes, stampFields, hfield, hyear]

theorem ofStamp?_eq_some_iff_fields : ofStamp? text = some t ↔
    text.toList.length = 14 ∧ (∀ c ∈ text.toList, c.isDigit) ∧ (stampFields text.toList).Valid ∧
      t = stampFields text.toList := by
  rw [ofStamp?]
  simp only [Option.ite_none_right_eq_some, Option.some.injEq, List.all_eq_true, and_assoc]
  constructor
  · rintro ⟨hsize, hcs, hvalid, rfl⟩
    rw [Numeral.utf8ByteSize_of_isDigit hcs] at hsize
    exact ⟨hsize, hcs, hvalid, rfl⟩
  · rintro ⟨hlen, hcs, hvalid, rfl⟩
    rw [Numeral.utf8ByteSize_of_isDigit hcs]
    exact ⟨hlen, hcs, hvalid, rfl⟩

/-- The texts that are read, as bytes. -/
theorem ofStamp?_eq_some_iff_bytes : ofStamp? text = some t ↔
    (Numeral.bytes text).length = 14 ∧ (∀ b ∈ Numeral.bytes text, Numeral.IsDigitByte b) ∧
      (stampBytes (Numeral.bytes text)).Valid ∧ t = stampBytes (Numeral.bytes text) := by
  rw [ofStamp?_eq_some_iff_fields, Numeral.forall_isDigitByte_iff, Numeral.length_bytes]
  by_cases hcs : ∀ c ∈ text.toList, c.isDigit
  · rw [Numeral.utf8ByteSize_of_isDigit hcs, Numeral.bytes_eq_map hcs, stampBytes_map hcs]
  · simp [hcs]

/-- The texts that are read are the stamps of valid times. -/
theorem ofStamp?_eq_some_iff_stamp : ofStamp? text = some t ↔ t.Stampable ∧ text = t.stamp := by
  rw [ofStamp?_eq_some_iff_fields]
  constructor
  · rintro ⟨hlen, hcs, hvalid, rfl⟩
    refine ⟨⟨hvalid, rfl, year_stampFields_le hlen hcs⟩, ?_⟩
    apply String.toList_inj.1
    rw [toList_stamp_stampFields hlen hcs]
  · rintro ⟨ht, rfl⟩
    rw [stampFields_stamp ht]
    exact ⟨length_stamp t, fun c hc => isDigit_of_mem_stamp hc, ht.1, rfl⟩

end DateTime
end SerialNumber
