import SerialNumber.Proofs.Chronology

/-! Dates made of points in time, and points in time made of dates. All ways to a date land on the
same second, and the way back leads to the one moment of 1970 to early 2106 that the date stands
for. -/
namespace SerialNumber

namespace ZonedTime
variable {z : ZonedTime} {x : Int}

/-- The seconds of universal time that a local clock stands for: those of the days from 1 January
1970, counted one by one, and of the time of day, less the offset. -/
def IsSecondCount (z : ZonedTime) (x : Int) : Prop :=
  ∃ k, z.shown.date.IsDayCount k ∧ x = 86400 * k + z.shown.clock.secondOfDay - z.offset

theorem isSecondCount_iff (h : z.shown.Valid) : z.IsSecondCount x ↔ x = z.unixSeconds := by
  constructor
  · rintro ⟨k, hk, rfl⟩
    rw [(Date.isDayCount_iff h.1).1 hk]
    rfl
  · rintro rfl
    exact ⟨_, (Date.isDayCount_iff h.1).2 rfl, rfl⟩

theorem unixSeconds_of_offset_eq_zero (h : z.offset = 0) : z.unixSeconds = z.shown.seconds := by
  rw [unixSeconds, h, Int.sub_zero]

/-- The nanoseconds of universal time from the start of 1970. -/
def nanos (z : ZonedTime) : Int := 1000000000 * z.unixSeconds + z.shown.nano

theorem nanos_ofNanos (n : Int) : (ofNanos n).nanos = n := by
  have hseconds : (ofNanos n).unixSeconds = n / 1000000000 := unixSeconds_ofTimestamp _ _
  have hnano : (ofNanos n).shown.nano = (n % 1000000000).toNat := rfl
  rw [nanos, hseconds, hnano]
  omega

/-- Without a leap second the whole seconds are the floor of the time. -/
theorem nanos_ediv (h : z.shown.nano < 1000000000) : z.nanos / 1000000000 = z.unixSeconds := by
  rw [nanos]
  omega

theorem nano_lt_of_holds (h : TimeLimits.fourDigit.Holds z) : z.shown.nano < 1000000000 :=
  Nat.lt_succ_of_le h.2.2.2.2.2

end ZonedTime

namespace DateSerial
variable {d : DateSerial} {a : DateTime} {y z : ZonedTime} {x : Int}

/-- The date of the second `x`, to which nothing has been added. -/
def FreshAt (d : DateSerial) (x : Int) : Prop :=
  d.serial.chain = none ∧ (d.serial.value : Int) = x % 4294967296

theorem freshAt_ofSeconds (x : Int) : (ofSeconds x).FreshAt x := ⟨rfl, seconds_ofSeconds x⟩

theorem freshAt_of_denotes (h : Denotes x d) : d.FreshAt x := by
  rw [eq_ofSeconds_of_denotes h]
  exact freshAt_ofSeconds x

/-- A stamp leaves out the fraction of the second. -/
theorem ofText_stamp_of_valid (h : a.Valid) (hyear : 0 ≤ a.date.year)
    (hyear' : a.date.year ≤ 9999) : ofText a.stamp = .ok (ofUniversal a) := by
  let whole : DateTime := { a with nano := 0 }
  have hstampable : whole.Stampable := ⟨h, rfl, hyear, hyear'⟩
  calc ofText a.stamp = ofText whole.stamp := rfl
    _ = .ok (ofUniversal whole) := ofText_stamp hstampable
    _ = .ok (ofUniversal a) := rfl

/-- Every way to make a date of a point in time gives the second that its days and its time of day
count, in any year and whatever the fraction of the second is. -/
theorem conversions_agree :
    (∀ z : ZonedTime, z.shown.Valid → ∃ x, z.IsSecondCount x ∧ ∀ y, z.IsSecondCount y → y = x) ∧
    (∀ (z : ZonedTime) x, z.shown.Valid → z.IsSecondCount x → (ofZoned z).FreshAt x) ∧
    (∀ (z : ZonedTime) x, z.shown.Valid → -86400 ≤ z.offset → z.offset ≤ 86400 →
      z.IsSecondCount x → (ofUniversal z.universal).FreshAt x) ∧
    (∀ (z : ZonedTime) x, z.shown.Valid → z.IsSecondCount x → z.offset = 0 →
      0 ≤ z.shown.date.year → z.shown.date.year ≤ 9999 →
      ∃ d, ofText z.shown.stamp = .ok d ∧ d.FreshAt x) ∧
    (∀ n : Int, (ZonedTime.ofNanos n).nanos = n ∧
      (ofZoned (.ofNanos n)).FreshAt (n / 1000000000) ∧
      (ofUniversal
        (ZonedTime.ofTimestamp (n / 1000000000) (n % 1000000000).toNat).universal).FreshAt
        (n / 1000000000)) := by
  refine ⟨?_, ?_, ?_, ?_, ?_⟩
  · intro z hz
    exact ⟨z.unixSeconds, (ZonedTime.isSecondCount_iff hz).2 rfl,
      fun y hy => (ZonedTime.isSecondCount_iff hz).1 hy⟩
  · intro z x hz hx
    obtain rfl := (ZonedTime.isSecondCount_iff hz).1 hx
    exact freshAt_of_denotes (.zoned z)
  · intro z x hz hoffset hoffset' hx
    obtain rfl := (ZonedTime.isSecondCount_iff hz).1 hx
    rw [ofUniversal_universal hz hoffset hoffset']
    exact freshAt_ofSeconds _
  · intro z x hz hx hoffset hyear hyear'
    obtain rfl := (ZonedTime.isSecondCount_iff hz).1 hx
    refine ⟨_, ofText_stamp_of_valid hz hyear hyear', ?_⟩
    rw [ZonedTime.unixSeconds_of_offset_eq_zero hoffset]
    exact freshAt_ofSeconds _
  · intro n
    exact ⟨ZonedTime.nanos_ofNanos n, freshAt_of_denotes (.nanos n),
      freshAt_of_denotes (.timestamp _ _)⟩

/-- One hour ahead at the start of 1970, and within a leap second that a clock thirty seconds ahead
does not read at the end of a minute. -/
theorem conversions_agree_before_epoch_and_in_leap_second :
    (ofZoned ⟨⟨⟨1970, 1, 1⟩, ⟨0, 0, 0⟩, 500000000⟩, 3600⟩).FreshAt (-3600) ∧
    (ofUniversal (ZonedTime.universal
      ⟨⟨⟨2017, 1, 1⟩, ⟨0, 0, 29⟩, 1500000000⟩, 30⟩)).FreshAt 1483228799 := by
  obtain ⟨_, hzoned, huniversal, _⟩ := conversions_agree
  refine ⟨hzoned _ _ (by decide) ?_, huniversal _ _ (by decide) (by decide) (by decide) ?_⟩
  · exact (ZonedTime.isSecondCount_iff (by decide)).2 (by decide)
  · exact (ZonedTime.isSecondCount_iff (by decide)).2 (by decide)

/-- The whole seconds of universal time from 1970 to early 2106. -/
def WindowSecond (z : ZonedTime) : Prop := z.offset = 0 ∧ InWindow z.shown

theorem windowSecond_zoned (d : DateSerial) : WindowSecond d.zoned := ⟨rfl, inWindow_shown d⟩

theorem unixSeconds_zoned (d : DateSerial) : d.zoned.unixSeconds = d.seconds :=
  ZonedTime.unixSeconds_ofTimestamp _ _

theorem ofZoned_zoned (d : DateSerial) : ofZoned d.zoned = ofSeconds d.seconds := by
  rw [ofZoned, unixSeconds_zoned]

theorem eq_of_windowSecond (hy : WindowSecond y) (hz : WindowSecond z)
    (h : (4294967296 : Int) ∣ y.unixSeconds - z.unixSeconds) : y = z := by
  obtain ⟨hyoffset, hyshown⟩ := hy
  obtain ⟨hzoffset, hzshown⟩ := hz
  rw [ZonedTime.unixSeconds_of_offset_eq_zero hyoffset,
    ZonedTime.unixSeconds_of_offset_eq_zero hzoffset] at h
  have hshown := eq_of_inWindow hyshown hzshown h
  cases y
  cases z
  rw [ZonedTime.mk.injEq]
  exact ⟨hshown, hyoffset.trans hzoffset.symm⟩

/-- A date stands for a moment of the calendar from 1970 to early 2106 and is made of it again. The
date of any point in time stands for the one moment that is whole turns away from its floor. -/
theorem zoned_inverse :
    (∀ d : DateSerial, d.zoned.shown.InRange ∧ WindowSecond d.zoned ∧
      d.zoned.IsSecondCount d.seconds ∧ ofZoned d.zoned ≈ d ∧
      (ofZoned d.zoned).serial.chain = none) ∧
    (∀ z, TimeLimits.fourDigit.Holds z → WindowSecond (ofZoned z).zoned ∧
      (4294967296 : Int) ∣ (ofZoned z).zoned.unixSeconds - z.nanos / 1000000000 ∧
      ∀ y, WindowSecond y → (4294967296 : Int) ∣ y.unixSeconds - z.nanos / 1000000000 →
        y = (ofZoned z).zoned) := by
  constructor
  · intro d
    have hvalid : d.zoned.shown.Valid := (inWindow_shown d).1
    refine ⟨DateTime.valid_iff_inRange.1 hvalid, windowSecond_zoned d, ?_, ?_, ?_⟩
    · exact (ZonedTime.isSecondCount_iff hvalid).2 (unixSeconds_zoned d).symm
    · rw [ofZoned_zoned]
      exact ofSeconds_seconds_equiv d
    · rw [ofZoned_zoned]
      rfl
  · intro z hz
    rw [ZonedTime.nanos_ediv (ZonedTime.nano_lt_of_holds hz)]
    have hseconds : ((ofZoned z).seconds : Int) = z.unixSeconds % 4294967296 :=
      seconds_ofSeconds z.unixSeconds
    have hturns : (4294967296 : Int) ∣ (ofZoned z).zoned.unixSeconds - z.unixSeconds := by
      rw [unixSeconds_zoned]
      omega
    refine ⟨windowSecond_zoned _, hturns, ?_⟩
    intro y hy hyturns
    apply eq_of_windowSecond hy (windowSecond_zoned _)
    omega

/-- Half a second before 1970 is whole turns away from the last second of the window. -/
theorem zoned_inverse_before_epoch :
    (ofZoned (.ofNanos (-500000000))).zoned = ⟨lastSecond, 0⟩ := by
  obtain ⟨_, hunique⟩ := zoned_inverse.2 (.ofNanos (-500000000)) (by decide +kernel)
  refine (hunique.2 ⟨lastSecond, 0⟩ ⟨rfl, inWindow_lastSecond⟩ ?_).symm
  rw [ZonedTime.nanos_ofNanos]
  decide

end DateSerial
end SerialNumber
