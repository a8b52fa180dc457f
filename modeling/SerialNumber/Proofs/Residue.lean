import Mathlib.Algebra.Order.Ring.Int
import SerialNumber.DateSerial
import SerialNumber.Serial.Addition

/-! Residues. The space of a width is the ring of the integers modulo its size, wrapped into it from
as far away as one likes. Sums are wrapped to sums, and a narrower space, such as that of the dates,
sees what it would have seen without the wider one. -/
namespace SerialNumber

namespace Width
variable {v w : Width}

theorem cast_modulus (w : Width) : (w.modulus : Int) = 2 ^ w.bits := by
  rw [modulus, Nat.pow_eq, Nat.cast_pow, Nat.cast_ofNat]

theorem cast_maxAddend (w : Width) : (w.maxAddend : Int) = 2 ^ (w.bits - 1) - 1 := by
  have hpos := w.half_pos
  have hhalf : (w.half : Int) = 2 ^ (w.bits - 1) := by
    rw [half, Nat.pow_eq, Nat.cast_pow, Nat.cast_ofNat]
  rw [maxAddend, ← hhalf]
  omega

theorem modulus_dvd (h : v.bits ≤ w.bits) : v.modulus ∣ w.modulus := Nat.pow_dvd_pow 2 h

end Width

namespace Serial
variable {r : Serial} {v w : Width} {x y : Int}

theorem ofInt_congr (h : x % w.modulus = y % w.modulus) : ofInt w x = ofInt w y :=
  Serial.ext rfl (congrArg Int.toNat h) rfl

theorem ofInt_equiv_iff : ofInt w x ≈ ofInt w y ↔ (w.modulus : Int) ∣ x - y := by
  have hx : ((ofInt w x).value : Int) = x % w.modulus := ofInt_value
  have hy : ((ofInt w y).value : Int) = y % w.modulus := ofInt_value
  rw [Int.dvd_iff_emod_eq_zero, ← Int.emod_eq_emod_iff_emod_sub_eq_zero]
  constructor
  · intro h
    rw [← hx, ← hy, (equiv_iff.1 h).2]
  · intro h
    exact equiv_iff.2 ⟨rfl, congrArg value (ofInt_congr h)⟩

/-- To wrap into a wider space first makes no difference. -/
theorem ofInt_narrow (h : v.bits ≤ w.bits) : ofInt v (ofInt w x).value = ofInt v x := by
  -- The size of the narrower space divides that of the wider one, so the remainder stays.
  have hdvd : (v.modulus : Int) ∣ w.modulus := Int.natCast_dvd_natCast.2 (Width.modulus_dvd h)
  apply ofInt_congr
  rw [ofInt_value, Int.emod_emod_of_dvd x hdvd]

theorem exists_add_ofInt_iff : (∃ r, (ofInt w x).add (ofInt w y) = .ok r) ↔
    (ofInt w y).value ≤ w.maxAddend := by
  constructor
  · rintro ⟨r, hr⟩
    obtain ⟨hn, _⟩ := add_eq_ok_iff.1 hr
    exact (refusal?_eq_none_iff.1 hn).2.1
  · intro hmax
    exact ⟨_, add_of_chain_none rfl rfl hmax⟩

/-- The sum of two wrapped integers is the wrapped sum. -/
theorem equiv_ofInt_add (h : (ofInt w x).add (ofInt w y) = .ok r) : r ≈ ofInt w (x + y) := by
  obtain ⟨_, rfl⟩ := add_eq_ok_iff.1 h
  refine equiv_iff.2 ⟨rfl, Int.ofNat.inj ?_⟩
  calc (((ofInt w x).advance (ofInt w y).value).value : Int)
      = (((ofInt w x).value : Int) + (ofInt w y).value) % w.modulus := rfl
    _ = (x + y) % w.modulus := by rw [ofInt_value, ofInt_value, ← Int.add_emod]
    _ = (ofInt w (x + y)).value := ofInt_value.symm

theorem ofBits!_bits (w : Width) (x : Int) : ofBits! x w.bits = .ok (ofInt w x) :=
  ofBits!_eq_ok_iff.2 (ofBits_eq_ok_iff.2 ⟨w, rfl, rfl⟩)

theorem ofInt_value_equiv (s : Serial) : ofInt s.width s.value ≈ s :=
  equiv_iff.2 ⟨rfl, ofInt_value_of_lt s.value_lt⟩

end Serial

namespace DateSerial
variable {s : Serial} {w : Width} {x : Int} {k : Nat}

theorem ofSerial_ofInt (h : 32 ≤ w.bits) : ofSerial (.ofInt w x) = ofSeconds x :=
  DateSerial.ext (Serial.ofInt_narrow h)

theorem ofSeconds_eq_ofUInt32 {n : UInt32} (h : (n.toNat : Int) = x % 2 ^ 32) :
    ofSeconds x = ofUInt32 n := by
  apply DateSerial.ext
  apply Serial.ofInt_congr
  rw [h]
  exact (Int.emod_emod ..).symm

theorem seconds_ofSerial (s : Serial) : (ofSerial s).seconds = s.value % 4294967296 :=
  Serial.ofInt_value_natCast

theorem seconds_ofSerial_advance (h : 32 ≤ s.width.bits) :
    (ofSerial (s.advance k)).seconds = (s.value + k) % 4294967296 := by
  have hdvd : Width.standard.modulus ∣ s.width.modulus := Width.modulus_dvd h
  rw [seconds_ofSerial]
  exact Nat.mod_mod_of_dvd (s.value + k) hdvd

end DateSerial

/-- Integers are wrapped to their remainders, and every serial is the same number as a wrapped
integer. Wrapping takes sums to sums, which can be formed if the second remainder is an amount that
can be added. The dates see of a space that is no narrower than theirs what they would have seen of
the integers. -/
theorem wrapping_homomorphism :
    (∀ (w : Width) (x : Int), Serial.ofBits! x w.bits = .ok (.ofInt w x) ∧
      ((Serial.ofInt w x).value : Int) = x % 2 ^ w.bits ∧ (Serial.ofInt w x).chain = none) ∧
    (∀ (w : Width) (x y : Int),
      Serial.ofInt w x ≈ .ofInt w y ↔ (2 ^ w.bits : Int) ∣ x - y) ∧
    (∀ s : Serial, ∃ t, Serial.ofBits! s.value s.width.bits = .ok t ∧ t ≈ s) ∧
    (∀ (w : Width) (x y : Int),
      ((∃ r, (Serial.ofInt w x).add (.ofInt w y) = .ok r) ↔
        y % 2 ^ w.bits ≤ 2 ^ (w.bits - 1) - 1) ∧
      ∀ r, (Serial.ofInt w x).add (.ofInt w y) = .ok r → r ≈ .ofInt w (x + y)) ∧
    (∀ (w : Width) (x : Int) (n : UInt32), 32 ≤ w.bits → (n.toNat : Int) = x % 2 ^ 32 →
      DateSerial.ofSerial (.ofInt w x) = .ofUInt32 n) ∧
    (∀ a b r : Serial, 32 ≤ a.width.bits → a.add b = .ok r → (DateSerial.ofSerial r).seconds =
      ((DateSerial.ofSerial a).seconds + (DateSerial.ofSerial b).seconds) % 2 ^ 32) := by
  refine ⟨?_, ?_, ?_, ?_, ?_, ?_⟩
  · intro w x
    exact ⟨Serial.ofBits!_bits w x, by rw [Serial.ofInt_value, w.cast_modulus], rfl⟩
  · intro w x y
    rw [Serial.ofInt_equiv_iff, w.cast_modulus]
  · intro s
    exact ⟨_, Serial.ofBits!_bits s.width s.value, Serial.ofInt_value_equiv s⟩
  · intro w x y
    refine ⟨?_, fun r => Serial.equiv_ofInt_add⟩
    rw [Serial.exists_add_ofInt_iff, ← w.cast_modulus, ← w.cast_maxAddend, ← Serial.ofInt_value,
      Int.ofNat_le]
  · intro w x n h hn
    calc DateSerial.ofSerial (.ofInt w x)
        = .ofSeconds x := DateSerial.ofSerial_ofInt h
      _ = .ofUInt32 n := DateSerial.ofSeconds_eq_ofUInt32 hn
  · intro a b r h hr
    obtain ⟨_, rfl⟩ := Serial.add_eq_ok_iff.1 hr
    rw [DateSerial.seconds_ofSerial_advance h, DateSerial.seconds_ofSerial,
      DateSerial.seconds_ofSerial]
    exact Nat.add_mod ..

/-- At the ends of the integers of 128 bits. In a space of 64 bits the least of them is the same
number as zero. The greatest is the end of the space, which is too large an amount to add, but one
can be added to it, which leads to zero. The dates see it as the last second of their space, and
zero after it. -/
theorem wrapping_homomorphism_at_the_ends :
    Serial.ofInt { bits := 64 } (-170141183460469231731687303715884105728) ≈
      .ofInt { bits := 64 } 0 ∧
    (¬ ∃ r, (Serial.ofInt { bits := 64 } 1).add
      (.ofInt { bits := 64 } 170141183460469231731687303715884105727) = .ok r) ∧
    (∃ r, (Serial.ofInt { bits := 64 } 170141183460469231731687303715884105727).add
        (.ofInt { bits := 64 } (-170141183460469231731687303715884105727)) = .ok r ∧
      r ≈ .ofInt { bits := 64 } 0 ∧ (DateSerial.ofSerial r).seconds = 0) ∧
    DateSerial.ofSerial (.ofInt { bits := 64 } 170141183460469231731687303715884105727) =
      .ofUInt32 4294967295 := by
  obtain ⟨_, hsame, _, hadd, hdate, hseconds⟩ := wrapping_homomorphism
  refine ⟨?_, ?_, ?_, ?_⟩
  · exact (hsame _ _ _).2 (by decide)
  · rw [(hadd _ _ _).1]
    decide
  · obtain ⟨hiff, hsum⟩ := hadd { bits := 64 } 170141183460469231731687303715884105727
      (-170141183460469231731687303715884105727)
    obtain ⟨r, hr⟩ := hiff.2 (by decide)
    exact ⟨r, hr, hsum r hr, (hseconds _ _ r (by decide) hr).trans rfl⟩
  · exact hdate _ _ _ (by decide) (by decide)

end SerialNumber
