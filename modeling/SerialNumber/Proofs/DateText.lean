import SerialNumber.DateSerial.Text
import SerialNumber.Proofs.SecondCount
import SerialNumber.Proofs.Stamp

/-! Dates as text. Fourteen digits are read if they name a time of the calendar, and a date is
written as the one time of 1970 to early 2106 that it can stand for. -/
namespace SerialNumber

/-- The fields lie in their ranges, and the day in its month by the rule of the calendar. -/
def DateTime.InRange (a : DateTime) : Prop :=
  (1 ≤ a.date.month ∧ a.date.month ≤ 12) ∧
    (1 ≤ a.date.day ∧ a.date.day ≤ Date.daysOfMonth a.date.year a.date.month) ∧
    a.clock.hour ≤ 23 ∧ a.clock.minute ≤ 59 ∧ a.clock.second ≤ 59

theorem DateTime.valid_iff_inRange {a : DateTime} : a.Valid ↔ a.InRange := by
  constructor
  · rintro ⟨⟨hm, hm', hd, hd'⟩, hh, hmi, hs⟩
    rw [Date.monthLength_eq_daysOfMonth hm hm'] at hd'
    exact ⟨⟨hm, hm'⟩, ⟨hd, hd'⟩, Nat.le_of_lt_succ hh, Nat.le_of_lt_succ hmi,
      Nat.le_of_lt_succ hs⟩
  · rintro ⟨⟨hm, hm'⟩, ⟨hd, hd'⟩, hh, hmi, hs⟩
    rw [← Date.monthLength_eq_daysOfMonth hm hm'] at hd'
    exact ⟨⟨hm, hm', hd, hd'⟩, Nat.lt_succ_of_le hh, Nat.lt_succ_of_le hmi, Nat.lt_succ_of_le hs⟩

namespace DateSerial
variable {d e : DateSerial} {t u : String} {a b : DateTime} {x y : Int}

/-- The time that the bytes of a text name, if they are fourteen digits. -/
def timeOfText (t : String) : DateTime := .stampBytes (Numeral.bytes t)

/-- Fourteen bytes, all of them digits, that name a time of the calendar. -/
def IsDateText (t : String) : Prop :=
  (Numeral.bytes t).length = 14 ∧ (∀ b ∈ Numeral.bytes t, Numeral.IsDigitByte b) ∧
    (timeOfText t).InRange

theorem ofStamp?_eq_some_iff : DateTime.ofStamp? t = some a ↔ IsDateText t ∧ a = timeOfText t := by
  rw [DateTime.ofStamp?_eq_some_iff_bytes, IsDateText, ← DateTime.valid_iff_inRange]
  simp only [timeOfText, and_assoc]

theorem ofText_eq_ok_iff_ofStamp? :
    ofText t = .ok d ↔ ∃ a, DateTime.ofStamp? t = some a ∧ d = ofUniversal a := by
  rw [ofText]
  cases DateTime.ofStamp? t <;> simp [eq_comm]

theorem ofText_eq_ok_iff : ofText t = .ok d ↔ IsDateText t ∧ d = ofUniversal (timeOfText t) := by
  rw [ofText_eq_ok_iff_ofStamp?]
  constructor
  · rintro ⟨a, ha, rfl⟩
    obtain ⟨ht, rfl⟩ := ofStamp?_eq_some_iff.1 ha
    exact ⟨ht, rfl⟩
  · rintro ⟨ht, rfl⟩
    exact ⟨_, ofStamp?_eq_some_iff.2 ⟨ht, rfl⟩, rfl⟩

theorem ofText_eq_error_iff : ofText t = .error .illegal ↔ ¬ IsDateText t := by
  constructor
  · intro h ht
    rw [ofText_eq_ok_iff.2 ⟨ht, rfl⟩] at h
    contradiction
  · intro ht
    cases h : ofText t with
    | ok d => exact (ht (ofText_eq_ok_iff.1 h).1).elim
    | error e => rfl

theorem stampable_timeOfText (h : IsDateText t) :
    (timeOfText t).Stampable ∧ t = (timeOfText t).stamp :=
  DateTime.ofStamp?_eq_some_iff_stamp.1 (ofStamp?_eq_some_iff.2 ⟨h, rfl⟩)

theorem seconds_ofSeconds (x : Int) : ((ofSeconds x).seconds : Int) = x % 4294967296 :=
  Serial.ofInt_value

theorem ofSeconds_equiv_iff : ofSeconds x ≈ ofSeconds y ↔ (4294967296 : Int) ∣ x - y := by
  have hx := seconds_ofSeconds x
  have hy := seconds_ofSeconds y
  rw [equiv_iff]
  omega

/-- The first and the last second that a date can stand for. -/
def firstSecond : DateTime := ⟨⟨1970, 1, 1⟩, ⟨0, 0, 0⟩, 0⟩

def lastSecond : DateTime := ⟨⟨2106, 2, 7⟩, ⟨6, 28, 15⟩, 0⟩

/-- The readings of a universal clock, to the second, from 1970 to early 2106. -/
def InWindow (a : DateTime) : Prop :=
  a.Valid ∧ a.nano = 0 ∧ firstSecond.seconds ≤ a.seconds ∧ a.seconds ≤ lastSecond.seconds

theorem inWindow_iff : InWindow a ↔
    a.Valid ∧ a.nano = 0 ∧ 0 ≤ a.seconds ∧ a.seconds < 4294967296 := by
  have hfirst : firstSecond.seconds = 0 := by decide
  have hlast : lastSecond.seconds = 4294967295 := by decide
  have hle : a.seconds ≤ 4294967295 ↔ a.seconds < 4294967296 := by omega
  rw [InWindow, hfirst, hlast, hle]

/-- What a universal clock shows at the date. -/
theorem shown_zoned (d : DateSerial) : d.zoned.shown = .ofSeconds d.seconds 0 := rfl

theorem inWindow_shown (d : DateSerial) : InWindow d.zoned.shown := by
  have hlt := d.seconds_lt
  rw [inWindow_iff, shown_zoned, DateTime.seconds_ofSeconds]
  exact ⟨DateTime.valid_ofSeconds, rfl, by omega, by omega⟩

theorem eq_of_inWindow (ha : InWindow a) (hb : InWindow b)
    (h : (4294967296 : Int) ∣ a.seconds - b.seconds) : a = b := by
  obtain ⟨havalid, hanano, hage, halt⟩ := inWindow_iff.1 ha
  obtain ⟨hbvalid, hbnano, hbge, hblt⟩ := inWindow_iff.1 hb
  exact DateTime.eq_of_seconds_eq havalid hbvalid (hanano.trans hbnano.symm) (by omega)

theorem stampable_of_inWindow (h : InWindow a) : a.Stampable := by
  obtain ⟨hvalid, hnano, hge, hlt⟩ := inWindow_iff.1 h
  have hday : a.seconds = 86400 * a.date.dayNumber + a.clock.secondOfDay := rfl
  have hclock := Clock.secondOfDay_lt hvalid.2
  have hepoch := Date.daysBeforeYear_1970
  have hzero : Date.daysBeforeYear 0 = 0 := by decide
  have hend : Date.daysBeforeYear 10000 = 3652425 := by decide
  have hyear : ¬ a.date.year < 0 := by
    rw [Date.year_lt_iff hvalid.1]
    omega
  have hyear' : a.date.year < 10000 := by
    rw [Date.year_lt_iff hvalid.1]
    omega
  exact ⟨hvalid, hnano, by omega, by omega⟩

theorem ofText_stamp (h : a.Stampable) : ofText a.stamp = .ok (ofUniversal a) :=
  ofText_eq_ok_iff_ofStamp?.2 ⟨a, DateTime.ofStamp?_eq_some_iff_stamp.2 ⟨h, rfl⟩, rfl⟩

theorem ofText_text (d : DateSerial) : ofText d.text = .ok (ofSeconds d.seconds) := by
  rw [text, ofText_stamp (stampable_of_inWindow (inWindow_shown d)), ofUniversal, shown_zoned,
    DateTime.seconds_ofSeconds]

theorem isDateText_text (d : DateSerial) : IsDateText d.text :=
  (ofText_eq_ok_iff.1 (ofText_text d)).1

/-- A date that was read shows the time of its window that is a number of turns away. -/
theorem dvd_seconds_shown_sub (h : ofText t = .ok d) :
    (4294967296 : Int) ∣ d.zoned.shown.seconds - (timeOfText t).seconds := by
  obtain ⟨_, rfl⟩ := ofText_eq_ok_iff.1 h
  have hseconds := seconds_ofSeconds (timeOfText t).seconds
  rw [shown_zoned, DateTime.seconds_ofSeconds, ofUniversal]
  omega

theorem seconds_of_ofText (h : ofText t = .ok d) :
    (d.seconds : Int) = (timeOfText t).seconds % 4294967296 := by
  obtain ⟨_, rfl⟩ := ofText_eq_ok_iff.1 h
  exact seconds_ofSeconds _

theorem inWindow_firstSecond : InWindow firstSecond := ⟨by decide, rfl, by decide, by decide⟩

theorem inWindow_lastSecond : InWindow lastSecond := ⟨by decide, rfl, by decide, by decide⟩

theorem ofText_epoch : ofText "19700101000000" = .ok (ofSeconds 0) := by
  have hstamp : "19700101000000" = firstSecond.stamp := by decide
  have hseconds : firstSecond.seconds = 0 := by decide
  rw [hstamp, ofText_stamp (stampable_of_inWindow inWindow_firstSecond), ofUniversal, hseconds]

/-- The seconds of a text are the steps of the clock from the start of 1970, or up to there. -/
theorem seconds_by_steps (h : ofText t = .ok d) : ∃ j : Nat,
    timeOfText t = DateTime.next^[j] firstSecond ∧ d.seconds = j % 4294967296 ∨
      firstSecond = DateTime.next^[j] (timeOfText t) ∧ (d.seconds + j) % 4294967296 = 0 := by
  obtain ⟨⟨hvalid, hnano, _⟩, _⟩ := stampable_timeOfText (ofText_eq_ok_iff.1 h).1
  have hfirst : firstSecond.HasNano 0 := ⟨inWindow_firstSecond.1, rfl⟩
  have hepoch : firstSecond.seconds = 0 := by decide
  have hseconds := seconds_of_ofText h
  obtain ⟨j, ⟨hj, htime⟩ | ⟨hj, htime⟩⟩ :=
    (DateTime.stepsApart_next_iff hfirst ⟨hvalid, hnano⟩).2 rfl
  · exact ⟨j, Or.inl ⟨htime, by omega⟩⟩
  · exact ⟨j, Or.inr ⟨htime, by omega⟩⟩

/-- The text of a date reads as the date without its chain. A text reads as a date whose text is
that of the one time from 1970 to early 2106 that is a number of whole turns away, so the same text
if that is where its own time lies. -/
theorem text_round_trip :
    (∀ d : DateSerial, (Numeral.bytes d.text).length = 14 ∧
      (∀ b ∈ Numeral.bytes d.text, Numeral.IsDigitByte b) ∧
      ∃ e, ofText d.text = .ok e ∧ e.serial.value = d.serial.value ∧ e.serial.chain = none) ∧
    (∀ t d, ofText t = .ok d →
      (InWindow (timeOfText t) → d.text = t) ∧
      ∃ a, InWindow a ∧ (4294967296 : Int) ∣ a.seconds - (timeOfText t).seconds ∧
        (∀ b, InWindow b → (4294967296 : Int) ∣ b.seconds - (timeOfText t).seconds → b = a) ∧
        d.text = a.stamp) ∧
    (∀ t u d e, ofText t = .ok d → ofText u = .ok e →
      (d ≈ e ↔ (4294967296 : Int) ∣ (timeOfText t).seconds - (timeOfText u).seconds)) := by
  refine ⟨?_, ?_, ?_⟩
  · intro d
    obtain ⟨hlen, hdigits, _⟩ := isDateText_text d
    refine ⟨hlen, hdigits, _, ofText_text d, ?_, rfl⟩
    have hseconds := seconds_ofSeconds d.seconds
    have hlt := d.seconds_lt
    change (ofSeconds d.seconds).seconds = d.seconds
    omega
  · intro t d h
    have hshown := dvd_seconds_shown_sub h
    constructor
    · intro hwindow
      obtain ⟨_, hstamp⟩ := stampable_timeOfText (ofText_eq_ok_iff.1 h).1
      rw [text, eq_of_inWindow (inWindow_shown d) hwindow hshown, ← hstamp]
    · refine ⟨d.zoned.shown, inWindow_shown d, hshown, ?_, rfl⟩
      intro b hb hturns
      exact eq_of_inWindow hb (inWindow_shown d) (by omega)
  · intro t u d e hd he
    obtain ⟨_, rfl⟩ := ofText_eq_ok_iff.1 hd
    obtain ⟨_, rfl⟩ := ofText_eq_ok_iff.1 he
    exact ofSeconds_equiv_iff

/-- The second before 1970 is written as the last one of the window. -/
example : (ofSeconds (-1)).text = "21060207062815" := by decide +kernel

/-- Exactly the texts of fourteen digits that name a time of the calendar are read, as the seconds
from the start of 1970 modulo `2 ^ 32`. One second later the date is one more. -/
theorem ofText_reads_seconds :
    (∀ t, (FromText.fromText t : Except IllegalDate DateSerial) = ofText t) ∧
    (∀ t, (∃ d, ofText t = .ok d) ↔ IsDateText t) ∧
    (∀ t, ofText t = .error .illegal ↔ ¬ IsDateText t) ∧
    (∀ t d, ofText t = .ok d → d.serial.width.bits = 32 ∧ d.serial.chain = none ∧
      (d.serial.value : Int) = (timeOfText t).seconds % 4294967296 ∧
      ∃ j : Nat, timeOfText t = DateTime.next^[j] firstSecond ∧ d.serial.value = j % 4294967296 ∨
        firstSecond = DateTime.next^[j] (timeOfText t) ∧
          (d.serial.value + j) % 4294967296 = 0) ∧
    (∃ d, ofText "19700101000000" = .ok d ∧ d.serial.value = 0) ∧
    (∀ t u d e, ofText t = .ok d → ofText u = .ok e → timeOfText u = (timeOfText t).next →
      e.serial.value = (d.serial.value + 1) % 4294967296) := by
  refine ⟨fun t => rfl, ?_, fun t => ofText_eq_error_iff, ?_, ⟨_, ofText_epoch, by decide⟩, ?_⟩
  · intro t
    simp only [ofText_eq_ok_iff, exists_and_left, exists_eq, and_true]
  · intro t d h
    refine ⟨by rw [d.width_eq]; rfl, ?_, seconds_of_ofText h, seconds_by_steps h⟩
    obtain ⟨_, rfl⟩ := ofText_eq_ok_iff.1 h
    rfl
  · intro t u d e hd he hnext
    have hvalid := (stampable_timeOfText (ofText_eq_ok_iff.1 hd).1).1.1
    have hdsec := seconds_of_ofText hd
    have hesec := seconds_of_ofText he
    rw [hnext, DateTime.seconds_next hvalid] at hesec
    change e.seconds = (d.seconds + 1) % 4294967296
    omega

/-- The year zero is a leap year, and 1900 is not. -/
example : ofText "00000229000000" ≠ .error .illegal ∧
    ofText "19000229000000" = .error .illegal := by decide

end DateSerial
end SerialNumber
