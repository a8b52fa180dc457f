import Mathlib.Logic.Function.Iterate
import SerialNumber.Calendar.ZonedTime
import SerialNumber.Proofs.DayNumber

/-! Seconds counted from the start of 1970. Each reading of a clock on a day has its own count, one
second later it is one more, and a clock that is ahead or behind counts the same moment. -/
namespace SerialNumber

namespace Clock
variable {c : Clock} {n : Nat}

theorem secondOfDay_lt (h : c.Valid) : c.secondOfDay < 86400 := by
  obtain ⟨hh, hm, hs⟩ := h
  rw [secondOfDay]
  omega

theorem valid_ofSecondOfDay (h : n < 86400) : (ofSecondOfDay n).Valid := by
  refine ⟨?_, ?_, ?_⟩
  · simp only [ofSecondOfDay]
    omega
  · exact Nat.mod_lt _ (by decide)
  · exact Nat.mod_lt _ (by decide)

theorem ofSecondOfDay_secondOfDay (h : c.Valid) : ofSecondOfDay c.secondOfDay = c := by
  obtain ⟨hh, hm, hs⟩ := h
  obtain ⟨hour, minute, second⟩ := c
  simp only at hh hm hs
  simp only [ofSecondOfDay, secondOfDay, Clock.mk.injEq]
  omega

end Clock

namespace DateTime
variable {t u : DateTime} {n k : Int} {nano : Nat}

/-- The reading one second later. -/
def next (t : DateTime) : DateTime :=
  if t.clock.second < 59 then { t with clock := { t.clock with second := t.clock.second + 1 } }
  else if t.clock.minute < 59 then
    { t with clock := ⟨t.clock.hour, t.clock.minute + 1, 0⟩ }
  else if t.clock.hour < 23 then { t with clock := ⟨t.clock.hour + 1, 0, 0⟩ }
  else { t with date := t.date.next, clock := ⟨0, 0, 0⟩ }

theorem valid_next (h : t.Valid) : t.next.Valid := by
  obtain ⟨hdate, hh, hm, hs⟩ := h
  rw [next]
  split
  case isTrue hsec => exact ⟨hdate, hh, hm, by simp only; omega⟩
  case isFalse =>
    split
    case isTrue hmin => exact ⟨hdate, hh, by simp only; omega, by simp only; omega⟩
    case isFalse =>
      split
      case isTrue hhour =>
        exact ⟨hdate, by simp only; omega, by simp only; omega, by simp only; omega⟩
      case isFalse => exact ⟨Date.valid_next hdate, (by decide : Clock.Valid ⟨0, 0, 0⟩)⟩

theorem seconds_next (h : t.Valid) : t.next.seconds = t.seconds + 1 := by
  obtain ⟨hdate, hh, hm, hs⟩ := h
  have hday : t.date.next.dayNumber = t.date.dayNumber + 1 := Date.dayNumber_next hdate
  rw [next]
  split
  · simp only [seconds, Clock.secondOfDay]
    omega
  · split
    · simp only [seconds, Clock.secondOfDay]
      omega
    · split
      · simp only [seconds, Clock.secondOfDay]
        omega
      · simp only [seconds, Clock.secondOfDay, hday]
        omega

theorem seconds_ofSeconds : (ofSeconds n nano).seconds = n := by
  have hmod := Int.emod_nonneg n (b := 86400) (by decide)
  simp only [seconds, ofSeconds, Date.dayNumber_ofDayNumber, Clock.secondOfDay_ofSecondOfDay]
  omega

theorem valid_ofSeconds : (ofSeconds n nano).Valid := by
  have hlt := Int.emod_lt_of_pos n (b := 86400) (by decide)
  exact ⟨Date.valid_ofDayNumber _, Clock.valid_ofSecondOfDay (by omega)⟩

theorem ofSeconds_seconds (h : t.Valid) : ofSeconds t.seconds t.nano = t := by
  obtain ⟨hdate, hclock⟩ := h
  have hlt := Clock.secondOfDay_lt hclock
  have hdiv : t.seconds / 86400 = t.date.dayNumber := by
    rw [seconds]
    omega
  have hmod : (t.seconds % 86400).toNat = t.clock.secondOfDay := by
    rw [seconds]
    omega
  rw [ofSeconds, hdiv, hmod, Date.ofDayNumber_dayNumber hdate,
    Clock.ofSecondOfDay_secondOfDay hclock]

/-- A quarter of a million years has less than ten million million seconds. -/
theorem seconds_bounds (h : t.Valid) (hyear : -262143 ≤ t.date.year)
    (hyear' : t.date.year ≤ 262142) :
    -10000000000000 ≤ t.seconds ∧ t.seconds ≤ 10000000000000 := by
  obtain ⟨hdate, hclock⟩ := h
  have hday := Clock.secondOfDay_lt hclock
  obtain ⟨hle, hlt⟩ := Date.daysBeforeYear_le_dayNumber hdate
  simp only [Date.daysBeforeYear] at hle hlt
  rw [seconds]
  omega

theorem eq_of_seconds_eq (ht : t.Valid) (hu : u.Valid) (hnano : t.nano = u.nano)
    (h : t.seconds = u.seconds) : t = u := by
  rw [← ofSeconds_seconds ht, ← ofSeconds_seconds hu, h, hnano]

theorem nano_next (t : DateTime) : t.next.nano = t.nano := by
  rw [next]
  split
  · rfl
  · split
    · rfl
    · split <;> rfl

/-- A valid reading with this fraction of a second. -/
def HasNano (nano : Nat) (t : DateTime) : Prop := t.Valid ∧ t.nano = nano

theorem hasNano_next (t : DateTime) (h : t.HasNano nano) :
    t.next.HasNano nano ∧ t.next.seconds = t.seconds + 1 :=
  ⟨⟨valid_next h.1, (nano_next t).trans h.2⟩, seconds_next h.1⟩

theorem stepsApart_next_iff (ht : t.HasNano nano) (hu : u.HasNano nano) :
    StepsApart next t u k ↔ k = u.seconds - t.seconds :=
  stepsApart_iff hasNano_next
    (fun _ _ ha hb => eq_of_seconds_eq ha.1 hb.1 (ha.2.trans hb.2.symm)) ht hu

/-- A shift moves the count by as much, over the end of the day or its start. -/
theorem seconds_shift (h : t.Valid) (hk : -86400 ≤ k) (hk' : k ≤ 86400) :
    (t.shift k).seconds = t.seconds + k := by
  obtain ⟨hdate, hclock⟩ := h
  have hlt := Clock.secondOfDay_lt hclock
  have hprevious := Date.dayNumber_previous hdate
  have hnext := Date.dayNumber_next hdate
  simp only [shift]
  split
  · simp only [seconds, Clock.secondOfDay_ofSecondOfDay, hprevious]
    omega
  · split
    · simp only [seconds, Clock.secondOfDay_ofSecondOfDay]
      omega
    · simp only [seconds, Clock.secondOfDay_ofSecondOfDay, hnext]
      omega

end DateTime

namespace ZonedTime
variable {z : ZonedTime}

/-- The universal clock counts what the local one counts, less the offset. -/
theorem seconds_universal (h : z.shown.Valid) (ho : -86400 ≤ z.offset) (ho' : z.offset ≤ 86400) :
    z.universal.seconds = z.unixSeconds := by
  rw [universal, DateTime.seconds_shift h (by omega) (by omega), unixSeconds]
  omega

theorem unixSeconds_ofTimestamp (seconds : Int) (nano : Nat) :
    (ofTimestamp seconds nano).unixSeconds = seconds := by
  rw [ofTimestamp, unixSeconds, DateTime.seconds_ofSeconds, Int.sub_zero]

end ZonedTime
end SerialNumber
