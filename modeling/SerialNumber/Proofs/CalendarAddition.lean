import SerialNumber.Proofs.Ascent
import SerialNumber.Proofs.Conversion

/-! Addition to dates is addition on the calendar. The sum is shown as the instant so many seconds
later, less one turn if that lies past early 2106, where the calendar starts over. -/
namespace SerialNumber

namespace ZonedTime
variable {z : ZonedTime} {x : Int}

/-- A universal clock shows whole seconds, `x` of them from the start of 1970. -/
def IsUniversalAt (z : ZonedTime) (x : Int) : Prop :=
  z.offset = 0 ∧ z.shown.Valid ∧ z.shown.nano = 0 ∧ z.IsSecondCount x

theorem isUniversalAt_ofTimestamp (x : Int) : (ofTimestamp x 0).IsUniversalAt x := by
  have hvalid : (ofTimestamp x 0).shown.Valid := DateTime.valid_ofSeconds
  refine ⟨rfl, hvalid, rfl, (isSecondCount_iff hvalid).2 ?_⟩
  exact (unixSeconds_ofTimestamp x 0).symm

theorem isUniversalAt_iff : z.IsUniversalAt x ↔ z = ofTimestamp x 0 := by
  constructor
  · rintro ⟨hoffset, hvalid, hnano, hcount⟩
    have hseconds : x = z.shown.seconds := by
      rw [(isSecondCount_iff hvalid).1 hcount, unixSeconds_of_offset_eq_zero hoffset]
    have hshown : z.shown = .ofSeconds x 0 := by
      rw [hseconds, ← hnano, DateTime.ofSeconds_seconds hvalid]
    obtain ⟨shown, offset⟩ := z
    rw [ofTimestamp, mk.injEq]
    exact ⟨hshown, hoffset⟩
  · rintro rfl
    exact isUniversalAt_ofTimestamp x

end ZonedTime

namespace DateSerial
variable {d e : DateSerial} {n : Serial}

/-- The date is shown and written as the one instant `x` seconds from the start of 1970. -/
def ShowsSecond (d : DateSerial) (x : Int) : Prop :=
  ∃ z, (∀ y : ZonedTime, y.IsUniversalAt x ↔ y = z) ∧ d.zoned = z ∧ d.text = z.shown.stamp

theorem showsSecond_seconds (d : DateSerial) : d.ShowsSecond d.seconds :=
  ⟨d.zoned, fun _ => ZonedTime.isUniversalAt_iff, rfl, rfl⟩

/-- From one date to the other the clock moves on, or back, by the seconds between them. -/
theorem stepsApart_shown (d e : DateSerial) :
    StepsApart DateTime.next d.zoned.shown e.zoned.shown (e.seconds - d.seconds) := by
  obtain ⟨hd, hd0, _⟩ := inWindow_shown d
  obtain ⟨he, he0, _⟩ := inWindow_shown e
  apply (DateTime.stepsApart_next_iff ⟨hd, hd0⟩ ⟨he, he0⟩).2
  rw [shown_zoned, shown_zoned, DateTime.seconds_ofSeconds, DateTime.seconds_ofSeconds]

theorem lt_of_add (h : d.add n = .ok e) (hn : 0 < n.value) :
    d < e ∧ e.compare? d = some .gt := by
  have hcmp : d.compare? e = some .lt := by
    rw [compare?, Serial.compare?_of_add (serial_add_of_add h), Nat.compare_eq_lt.2 hn]
  have hswap : e.compare? d = (d.compare? e).swap := Serial.compare?_swap d.serial e.serial
  refine ⟨lt_iff.2 hcmp, ?_⟩
  rw [hswap, hcmp]
  rfl

/-- A date is added to as its serial is. The sum is shown as the instant that many seconds after the
one the date is shown as, or one turn before that if it lies past the end, and it is greater than
the date. To a date without a chain up to `2 ^ 31 - 1` seconds can be added. -/
theorem add_on_calendar :
    (∀ (d : DateSerial) (n : Serial), (d.add n).map serial = d.serial.add n) ∧
    (∀ (d e : DateSerial) (n : Serial), d.add n = .ok e →
      (d.zoned.unixSeconds + n.value < 4294967296 →
        e.ShowsSecond (d.zoned.unixSeconds + n.value) ∧
        StepsApart DateTime.next d.zoned.shown e.zoned.shown n.value) ∧
      (4294967296 ≤ d.zoned.unixSeconds + n.value →
        e.ShowsSecond (d.zoned.unixSeconds + n.value - 4294967296) ∧
        StepsApart DateTime.next d.zoned.shown e.zoned.shown (n.value - 4294967296)) ∧
      (0 < n.value → d < e ∧ e.compare? d = some .gt)) ∧
    (∀ (d : DateSerial) (n : Serial), d.serial.chain = none → n.width.bits = 32 →
      n.value ≤ 2147483647 → ∃ e, d.add n = .ok e) := by
  refine ⟨fun d n => add_serial, ?_, fun d n => exists_add⟩
  intro d e n h
  obtain ⟨hmax, hsum⟩ := seconds_of_add h
  have hd := d.seconds_lt
  have hshows := showsSecond_seconds e
  have hsteps := stepsApart_shown d e
  rw [unixSeconds_zoned]
  refine ⟨?_, ?_, lt_of_add h⟩
  · intro hlt
    have hseconds : (e.seconds : Int) = d.seconds + n.value := by omega
    have hmove : (e.seconds : Int) - d.seconds = n.value := by omega
    rw [hseconds] at hshows
    rw [hmove] at hsteps
    exact ⟨hshows, hsteps⟩
  · intro hle
    have hseconds : (e.seconds : Int) = d.seconds + n.value - 4294967296 := by omega
    have hmove : (e.seconds : Int) - d.seconds = n.value - 4294967296 := by omega
    rw [hseconds] at hshows
    rw [hmove] at hsteps
    exact ⟨hshows, hsteps⟩

/-- Six seconds before the end, three seconds more stay in the window and ten start it over. -/
theorem add_on_calendar_past_the_end :
    (∃ e, (ofSeconds 4294967290).add (.ofInt .standard 3) = .ok e ∧ e.ShowsSecond 4294967293) ∧
    (∃ e, (ofSeconds 4294967290).add (.ofInt .standard 10) = .ok e ∧ e.ShowsSecond 4 ∧
      ofSeconds 4294967290 < e) := by
  obtain ⟨_, hsum, hexists⟩ := add_on_calendar
  have hstart : (ofSeconds 4294967290).zoned.unixSeconds = 4294967290 := unixSeconds_zoned _
  constructor
  · obtain ⟨e, he⟩ := hexists (ofSeconds 4294967290) (.ofInt .standard 3) rfl rfl (by decide)
    obtain ⟨hwithin, _⟩ := hsum _ _ _ he
    rw [hstart] at hwithin
    exact ⟨e, he, (hwithin (by decide)).1⟩
  · obtain ⟨e, he⟩ := hexists (ofSeconds 4294967290) (.ofInt .standard 10) rfl rfl (by decide)
    obtain ⟨_, hpast, hlt⟩ := hsum _ _ _ he
    rw [hstart] at hpast
    exact ⟨e, he, (hpast (by decide)).1, (hlt (by decide)).1⟩

end DateSerial
end SerialNumber
