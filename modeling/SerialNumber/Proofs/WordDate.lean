import SerialNumber.Proofs.Word

/-! Words are wide enough for dates: for the digits that they are read from, the seconds that they
count, and the calendar that they are shown in. -/
namespace SerialNumber

/-- The calendar holds every time that a date can stand for. -/
theorem DateSerial.fourDigit_holds_zoned (d : DateSerial) : TimeLimits.fourDigit.Holds d.zoned := by
  obtain ⟨hvalid, hnano, hyear, hyear'⟩ := stampable_of_inWindow (inWindow_shown d)
  have hoffset : d.zoned.offset = 0 := rfl
  refine ⟨hvalid, ?_, hyear', ?_, ?_, ?_⟩
  · exact Int.le_trans (by decide) hyear
  · rw [hoffset]
    decide
  · rw [hoffset]
    decide
  · rw [hnano]
    decide

namespace Word
variable {bits start k : Nat} {x : Int} {bs : List UInt8} {d : DateSerial} {z : ZonedTime}

theorem ofSeconds?_eq_some (h : -2 ^ 63 ≤ x) (h' : x < 2 ^ 63) :
    ofSeconds? x = some (DateSerial.ofSeconds x).fields := by
  have hx : fitSigned? 64 x = some x := fitSigned?_eq_some h h'
  rw [ofSeconds?, hx, Option.bind_eq_bind, Option.bind_some]
  exact ofInt?_bits .standard ⟨by omega, by omega⟩

theorem seconds?_fields (d : DateSerial) : seconds? d.fields = some d.seconds :=
  fit?_eq_some rfl d.seconds_lt

theorem dateAdd?_fields (hd : d.Reachable) (n : Serial) :
    add? d.fields n.fields = some ((d.add n).map DateSerial.fields) := by
  have hsum : (d.add n).map DateSerial.fields = (d.serial.add n).map Serial.fields := by
    rw [← DateSerial.add_serial]
    cases d.add n <;> rfl
  rw [hsum]
  exact add?_fields (Operand.Reachable.ofDate hd) n

theorem greatest?_dates (items : List (Option DateSerial)) :
    greatest? (items.map (·.map DateSerial.fields)) =
      some ((DateSerial.greatest? items).map DateSerial.fields) :=
  greatest?_fields DateSerial.serial items

theorem zoned?_fields (d : DateSerial) : zoned? d.fields = some d.zoned := by
  have hlt := d.seconds_lt
  have hseconds : fitSigned? 64 d.seconds = some (d.seconds : Int) :=
    fitSigned?_eq_some (by omega) (by omega)
  rw [zoned?, seconds?_fields, Option.bind_eq_bind, Option.bind_some, hseconds,
    Option.bind_eq_bind, Option.bind_some]
  exact if_pos d.fourDigit_holds_zoned

theorem dateText?_fields (d : DateSerial) : dateText? d.fields = some d.text := by
  rw [dateText?, zoned?_fields]
  rfl

theorem dateToJson?_fields (d : DateSerial) : dateToJson? d.fields = some d.toJson := by
  rw [dateToJson?, seconds?_fields]
  rfl

theorem dateOfJson?_eq_some (v : Json) :
    dateOfJson? v = some ((DateSerial.ofJson v).map DateSerial.fields) := by
  have hread : ∀ k, Json.unsigned 32 v = .ok k →
      ofInt? k 32 = some (DateSerial.ofSeconds k).fields := by
    intro k hk
    obtain ⟨_, hlt⟩ := Json.unsigned_eq_ok_iff.1 hk
    exact ofInt?_standard (by omega)
  rw [dateOfJson?, onOk?_eq_some hread, DateSerial.ofJson]
  cases Json.unsigned 32 v <;> rfl

/-! ### Points in time -/

theorem dateOfZoned?_eq_some (h : TimeLimits.fourDigit.Holds z) :
    ofSeconds? z.unixSeconds = some (DateSerial.ofZoned z).fields := by
  obtain ⟨hvalid, hyear, hyear', hoffset, hoffset', _⟩ := h
  simp only [TimeLimits.fourDigit] at hyear hyear' hoffset hoffset'
  have hseconds := DateTime.seconds_bounds hvalid (by omega) (by omega)
  have hunix : z.unixSeconds = z.shown.seconds - z.offset := rfl
  exact ofSeconds?_eq_some (by omega) (by omega)

theorem dateOfUniversal?_eq_some (h : TimeLimits.wide.Holds z) :
    ofSeconds? z.universal.seconds = some (DateSerial.ofUniversal z.universal).fields := by
  obtain ⟨hvalid, hyear, hyear', hoffset, hoffset', _⟩ := h
  simp only [TimeLimits.wide] at hyear hyear' hoffset hoffset'
  have hseconds := DateTime.seconds_bounds hvalid hyear hyear'
  have huniversal := ZonedTime.seconds_universal hvalid (by omega) (by omega)
  have hunix : z.unixSeconds = z.shown.seconds - z.offset := rfl
  exact ofSeconds?_eq_some (by omega) (by omega)

/-! ### Digits -/

theorem digit?_eq_some {n : Nat} {b : UInt8} (hb : Numeral.IsDigitByte b)
    (h : n * 10 + 9 < 2 ^ bits) : digit? bits n b = some (n * 10 + (b.toNat - 48)) := by
  obtain ⟨hge, hle⟩ := hb
  have htens : fit? bits (n * 10) = some (n * 10) := fit?_eq_some rfl (by omega)
  have hdigit : fit? 8 (b.toNat - 48) = some (b.toNat - 48) := fit?_eq_some (by omega) (by omega)
  have hsum : fit? bits ((n * 10 : Nat) + (b.toNat - 48 : Nat)) =
      some (n * 10 + (b.toNat - 48)) := fit?_eq_some rfl (by omega)
  rw [digit?, htens, Option.bind_eq_bind, Option.bind_some, hdigit, Option.bind_some, hsum]

/-- Digits are read in a word that holds every number of as many digits. -/
theorem digits?_eq_some (hbs : ∀ b ∈ bs, Numeral.IsDigitByte b) (h : 10 ^ bs.length ≤ 2 ^ bits) :
    digits? bits bs = some (Numeral.byteValue bs) := by
  -- The last digit is the last step, and those before it make up a number that fits.
  induction bs using List.reverseRecOn with
  | nil => rfl
  | append_singleton bs b ih =>
    have hrest : ∀ c ∈ bs, Numeral.IsDigitByte c := fun c hc => hbs c (List.mem_append_left _ hc)
    have hlt := Numeral.byteValue_lt hrest
    rw [List.length_append, List.length_singleton, Nat.pow_succ] at h
    have hstart : bs.foldlM (digit? bits) 0 = some (Numeral.byteValue bs) := ih hrest (by omega)
    have hstep : digit? bits (Numeral.byteValue bs) b =
        some (Numeral.byteValue bs * 10 + (b.toNat - 48)) :=
      digit?_eq_some (hbs b (by simp)) (by omega)
    rw [digits?, List.foldlM_append, hstart, Option.bind_eq_bind, Option.bind_some,
      List.foldlM_cons, hstep, Numeral.byteValue_append_singleton]
    rfl

theorem isDigitByte_slice (hbs : ∀ b ∈ bs, Numeral.IsDigitByte b) (start k : Nat) :
    ∀ b ∈ (bs.drop start).take k, Numeral.IsDigitByte b := by
  intro b hb
  exact hbs b (List.mem_of_mem_drop (List.mem_of_mem_take hb))

theorem stampBytes?_field (hbs : ∀ b ∈ bs, Numeral.IsDigitByte b) (h : start + k ≤ bs.length)
    (hbits : 10 ^ k ≤ 2 ^ bits) : stampBytes?.field bs bits start (start + k) =
      some (Numeral.byteValue ((bs.drop start).take k)) := by
  have hslice : slice? start (start + k) bs = some ((bs.drop start).take k) := by
    rw [slice?, if_pos ⟨Nat.le_add_right .., h⟩, Nat.add_sub_cancel_left]
  have hlen : ((bs.drop start).take k).length = k := by
    rw [List.length_take, List.length_drop]
    omega
  rw [stampBytes?.field, hslice, Option.bind_eq_bind, Option.bind_some]
  exact digits?_eq_some (isDigitByte_slice hbs start k) (by rwa [hlen])

/-- Four digits of the year are read in 32 bits, and two of each other field in 8. -/
theorem stampBytes?_eq_some (hbs : ∀ b ∈ bs, Numeral.IsDigitByte b) (hlen : bs.length = 14) :
    stampBytes? bs = some (DateTime.stampBytes bs) := by
  have hfield : ∀ start, start + 2 ≤ bs.length →
      stampBytes?.field bs 8 start (start + 2) = some (DateTime.stampBytes.field bs start) :=
    fun start hstart => stampBytes?_field hbs hstart (by decide)
  have hyear : stampBytes?.field bs 32 0 (0 + 4) = some (Numeral.byteValue (bs.take 4)) :=
    stampBytes?_field hbs (by omega) (by decide)
  have hfour : (bs.take 4).length = 4 := by simp [hlen]
  have hlt := Numeral.byteValue_lt (isDigitByte_slice hbs 0 4)
  rw [List.drop_zero, hfour] at hlt
  have hsigned : fitSigned? 32 (Numeral.byteValue (bs.take 4)) =
      some (Numeral.byteValue (bs.take 4) : Int) := fitSigned?_eq_some (by omega) (by omega)
  rw [stampBytes?, hyear, Option.bind_eq_bind, Option.bind_some, hsigned, Option.bind_eq_bind,
    Option.bind_some, hfield 4 (by omega), Option.bind_some, hfield 6 (by omega), Option.bind_some,
    hfield 8 (by omega), Option.bind_some, hfield 10 (by omega), Option.bind_some,
    hfield 12 (by omega), Option.bind_some]
  rfl

theorem all_isDigit_iff : bs.all isDigit ↔ ∀ b ∈ bs, Numeral.IsDigitByte b := by
  simp [isDigit, Numeral.IsDigitByte]

theorem dateOfText?_eq_some (t : String) :
    dateOfText? t = some ((DateSerial.ofText t).map DateSerial.fields) := by
  by_cases hdigits : (Numeral.bytes t).length = 14 ∧ (Numeral.bytes t).all isDigit
  · obtain ⟨hlen, hall⟩ := hdigits
    have hbs := all_isDigit_iff.1 hall
    have htime : stampBytes? (Numeral.bytes t) = some (DateSerial.timeOfText t) :=
      stampBytes?_eq_some hbs hlen
    have hread : dateOfText? t = (stampBytes? (Numeral.bytes t)).bind fun time =>
        if time.Valid then (ofSeconds? time.seconds).map .ok else some (.error .illegal) :=
      if_pos ⟨hlen, hall⟩
    rw [hread, htime, Option.bind_some]
    by_cases hvalid : (DateSerial.timeOfText t).Valid
    · have hdate : DateSerial.IsDateText t := ⟨hlen, hbs, DateTime.valid_iff_inRange.1 hvalid⟩
      obtain ⟨⟨_, _, hyear, hyear'⟩, _⟩ := DateSerial.stampable_timeOfText hdate
      have hseconds := DateTime.seconds_bounds hvalid (by omega) (by omega)
      rw [if_pos hvalid, ofSeconds?_eq_some (by omega) (by omega),
        DateSerial.ofText_eq_ok_iff.2 ⟨hdate, rfl⟩]
      rfl
    · have hdate : ¬ DateSerial.IsDateText t :=
        fun hdate => hvalid (DateTime.valid_iff_inRange.2 hdate.2.2)
      rw [if_neg hvalid, DateSerial.ofText_eq_error_iff.2 hdate]
      rfl
  · have hread : dateOfText? t = some (.error .illegal) := if_neg hdigits
    have hdate : ¬ DateSerial.IsDateText t := fun hdate =>
      hdigits ⟨hdate.1, all_isDigit_iff.2 hdate.2.1⟩
    rw [hread, DateSerial.ofText_eq_error_iff.2 hdate]
    rfl

end Word
end SerialNumber
