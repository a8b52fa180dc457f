import SerialNumber.Outcome
import SerialNumber.Proofs.DateText
import SerialNumber.Proofs.Distance

/-! Dates in the order of time. Dates of two moments compare by the seconds between the moments,
which may lie on different turns of the ring. -/
namespace SerialNumber.DateSerial
variable {d e : DateSerial} {n : Serial} {z : ZonedTime} {x y : Int}

/-- The dates that can be made for the moment `x` seconds after the start of 1970: from a text, from
what a clock shows at some offset, and from a count of nanoseconds or seconds. -/
inductive Denotes : Int → DateSerial → Prop
  | text {t : String} {d : DateSerial} (h : ofText t = .ok d) : Denotes (timeOfText t).seconds d
  | zoned (z : ZonedTime) : Denotes z.unixSeconds (.ofZoned z)
  | nanos (n : Int) : Denotes (n / 1000000000) (.ofZoned (.ofNanos n))
  | universal {z : ZonedTime} (h : TimeLimits.wide.Holds z) :
      Denotes z.unixSeconds (.ofUniversal z.universal)
  | timestamp (x : Int) (nano : Nat) :
      Denotes x (.ofUniversal (ZonedTime.ofTimestamp x nano).universal)

theorem ofUniversal_universal (h : z.shown.Valid) (ho : -86400 ≤ z.offset)
    (ho' : z.offset ≤ 86400) : ofUniversal z.universal = ofSeconds z.unixSeconds := by
  rw [ofUniversal, ZonedTime.seconds_universal h ho ho']

theorem eq_ofSeconds_of_denotes (h : Denotes x d) : d = ofSeconds x := by
  cases h with
  | text h => exact (ofText_eq_ok_iff.1 h).2
  | zoned z => rfl
  | nanos n => rw [ofZoned, ZonedTime.ofNanos, ZonedTime.unixSeconds_ofTimestamp]
  | @universal z h =>
    obtain ⟨hvalid, _, _, hmin, hmax, _⟩ := h
    have hoffset : TimeLimits.wide.maxOffset = 86399 := rfl
    exact ofUniversal_universal hvalid (by omega) (by omega)
  | timestamp x nano =>
    have hvalid : (ZonedTime.ofTimestamp x nano).shown.Valid := DateTime.valid_ofSeconds
    have hoffset : (ZonedTime.ofTimestamp x nano).offset = 0 := rfl
    rw [ofUniversal_universal hvalid (by omega) (by omega), ZonedTime.unixSeconds_ofTimestamp]

theorem compare?_ofSeconds (x y : Int) : (ofSeconds x).compare? (ofSeconds y) =
    Width.standard.compareAhead ((y - x) % 4294967296).toNat := by
  have hdist : ((ofSeconds x).serial.distance (ofSeconds y).serial : Int) =
      (y - x) % 4294967296 :=
    Serial.distance_eq_emod (seconds_ofSeconds x) (seconds_ofSeconds y)
  have hw : (ofSeconds x).serial.width = (ofSeconds y).serial.width := rfl
  rw [compare?, Serial.compare?_eq_compareAhead hw, ← hdist]
  rfl

theorem lt_iff : d < e ↔ d.compare? e = some .lt := Comparison.isLT_iff

theorem serial_add_of_add (h : d.add n = .ok e) : d.serial.add n = .ok e.serial := by
  rw [← add_serial, h]
  rfl

theorem seconds_of_add (h : d.add n = .ok e) :
    n.value ≤ 2147483647 ∧ e.seconds = (d.seconds + n.value) % 4294967296 := by
  obtain ⟨hn, he⟩ := Serial.add_eq_ok_iff.1 (serial_add_of_add h)
  obtain ⟨_, hmax, _⟩ := Serial.refusal?_eq_none_iff.1 hn
  rw [d.width_eq] at hmax
  refine ⟨hmax, ?_⟩
  rw [seconds, he, Serial.advance_value, d.width_eq]
  rfl

theorem exists_add (hd : d.serial.chain = none) (hw : n.width.bits = 32)
    (hn : n.value ≤ 2147483647) : ∃ e, d.add n = .ok e := by
  have hwidth : d.serial.width = n.width := d.width_eq.trans (Width.ext hw.symm)
  have hmax : n.value ≤ d.serial.width.maxAddend := by
    rw [d.width_eq]
    exact hn
  have hsum := Serial.add_of_chain_none hd hwidth hmax
  rw [← add_serial] at hsum
  obtain ⟨e, he, _⟩ := Outcome.map_eq_ok_iff.1 hsum
  exact ⟨e, he⟩

theorem exists_add_ofInt (h : 0 ≤ y - x) (hlt : y - x < 2147483648) :
    ∃ r, (ofSeconds x).add (.ofInt .standard (y - x)) = .ok r ∧ r ≈ ofSeconds y := by
  have hn : ((Serial.ofInt .standard (y - x)).value : Int) = (y - x) % 4294967296 :=
    Serial.ofInt_value
  obtain ⟨r, hr⟩ : ∃ r, (ofSeconds x).add (.ofInt .standard (y - x)) = .ok r :=
    exists_add rfl rfl (by omega)
  obtain ⟨_, hsum⟩ := seconds_of_add hr
  refine ⟨r, hr, equiv_iff.2 ?_⟩
  have hx := seconds_ofSeconds x
  have hy := seconds_ofSeconds y
  omega

/-- Dates of two moments stand in the order of the moments if these are less than `2 ^ 31` seconds
apart, on whichever turns of the ring they lie, and adding the seconds between them to the earlier
date gives the later one. In general they compare by those seconds modulo `2 ^ 32`. -/
theorem order_of_moments (hd : Denotes x d) (he : Denotes y e) :
    (0 < y - x → y - x < 2147483648 → d < e) ∧
    (y - x = 2147483648 → d.compare? e = none ∧ e.compare? d = none) ∧
    ((4294967296 : Int) ∣ y - x → d ≈ e) ∧
    (d.compare? e = some .eq ↔ (y - x) % 4294967296 = 0) ∧
    (d.compare? e = some .lt ↔
      1 ≤ (y - x) % 4294967296 ∧ (y - x) % 4294967296 ≤ 2147483647) ∧
    (d.compare? e = none ↔ (y - x) % 4294967296 = 2147483648) ∧
    (d.compare? e = some .gt ↔ 2147483648 < (y - x) % 4294967296) ∧
    (0 ≤ y - x → y - x < 2147483648 →
      ∃ r, d.add (.ofInt .standard (y - x)) = .ok r ∧ r ≈ e) := by
  obtain rfl := eq_ofSeconds_of_denotes hd
  obtain rfl := eq_ofSeconds_of_denotes he
  have hhalf : Width.standard.half = 2147483648 := rfl
  rw [lt_iff, compare?_ofSeconds, compare?_ofSeconds, Width.compareAhead_eq_iff,
    Width.compareAhead_lt_iff, Width.compareAhead_none_iff, Width.compareAhead_gt_iff,
    Width.compareAhead_none_iff, hhalf]
  refine ⟨by omega, by omega, ?_, by omega, by omega, by omega, by omega, exists_add_ofInt⟩
  intro hturns
  exact ofSeconds_equiv_iff.2 (by omega)

/-- The last second of a turn, as text, and five seconds later on a clock one hour ahead. -/
theorem order_of_moments_across_turns :
    ∃ d e, ofText "21060207062815" = .ok d ∧
      e = ofUniversal (ZonedTime.universal ⟨⟨⟨2106, 2, 7⟩, ⟨7, 28, 20⟩, 0⟩, 3600⟩) ∧
      d < e ∧ ∃ r, d.add (.ofInt .standard 5) = .ok r ∧ r ≈ e := by
  have hstamp : "21060207062815" = lastSecond.stamp := by decide
  have htext : ofText "21060207062815" = .ok (ofUniversal lastSecond) := by
    rw [hstamp, ofText_stamp (stampable_of_inWindow inWindow_lastSecond)]
  have htime : lastSecond = timeOfText "21060207062815" :=
    (ofStamp?_eq_some_iff.1 (DateTime.ofStamp?_eq_some_iff_stamp.2
      ⟨stampable_of_inWindow inWindow_lastSecond, hstamp⟩)).2
  have hd := Denotes.text htext
  rw [← htime] at hd
  have he : Denotes _ (ofUniversal (ZonedTime.universal ⟨⟨⟨2106, 2, 7⟩, ⟨7, 28, 20⟩, 0⟩, 3600⟩)) :=
    .universal (by decide)
  have hfive : ZonedTime.unixSeconds ⟨⟨⟨2106, 2, 7⟩, ⟨7, 28, 20⟩, 0⟩, 3600⟩ -
      lastSecond.seconds = 5 := by decide
  obtain ⟨hlt, _, _, _, _, _, _, hadd⟩ := order_of_moments hd he
  rw [hfive] at hlt hadd
  exact ⟨_, _, htext, rfl, hlt (by decide) (by decide), hadd (by decide) (by decide)⟩

end SerialNumber.DateSerial
