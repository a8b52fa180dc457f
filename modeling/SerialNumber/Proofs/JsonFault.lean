import SerialNumber.Proofs.JsonForm

/-! Faults of JSON forms. The form of a serial has rules, which stand in an order. What meets them
all is read, and of anything else it is reported which rule it breaks first. -/
namespace SerialNumber

/-- A rule is given by the faults that break it. Of the rules that are broken, `e` breaks the one
that stands first. -/
inductive FirstBroken {ε : Type} : List (ε → Prop) → ε → Prop
  | here {rule : ε → Prop} {rules : List (ε → Prop)} {e : ε} (h : rule e) :
      FirstBroken (rule :: rules) e
  | later {rule : ε → Prop} {rules : List (ε → Prop)} {e : ε} (hkept : ∀ e', ¬ rule e')
      (h : FirstBroken rules e) : FirstBroken (rule :: rules) e

section rules
variable {ε α β : Type} {rule : ε → Prop} {rules before after : List (ε → Prop)} {e e' : ε}
  {x : Except ε α} {f : α → Except ε β}

theorem firstBroken_cons_of_kept (hkept : ∀ e', ¬ rule e') :
    FirstBroken (rule :: rules) e ↔ FirstBroken rules e := by
  constructor
  · intro h
    cases h with
    | here h => exact (hkept e h).elim
    | later _ h => exact h
  · exact .later hkept

theorem firstBroken_cons_of_not_kept (h : ¬ ∀ e', ¬ rule e') :
    FirstBroken (rule :: rules) e ↔ rule e := by
  constructor
  · intro hfirst
    cases hfirst with
    | here he => exact he
    | later hkept _ => exact (h hkept).elim
  · exact .here

theorem firstBroken_cons_of_broken (h : rule e) (honly : ∀ e', rule e' → e' = e) :
    FirstBroken (rule :: rules) e' ↔ e' = e := by
  rw [firstBroken_cons_of_not_kept fun hkept => hkept e h]
  constructor
  · exact honly e'
  · rintro rfl
    exact h

theorem firstBroken_singleton : FirstBroken [rule] e ↔ rule e := by
  constructor
  · intro h
    cases h with
    | here h => exact h
    | later _ h => cases h
  · exact .here

theorem throw_eq_error_iff_firstBroken (h : rule e) (honly : ∀ e', rule e' → e' = e) :
    (throw e : Except ε α) = .error e' ↔ FirstBroken (rule :: rules) e' := by
  rw [firstBroken_cons_of_broken h honly]
  constructor
  · intro he
    cases he
    rfl
  · rintro rfl
    rfl

theorem pure_eq_error_iff_firstBroken {a : α} (hkept : ∀ e', ¬ rule e') :
    (pure a : Except ε α) = .error e ↔ FirstBroken [rule] e := by
  rw [firstBroken_singleton]
  constructor
  · intro h
    cases h
  · exact fun h => (hkept e h).elim

theorem firstBroken_append : FirstBroken (before ++ after) e ↔
    FirstBroken before e ∨ (∀ e', ¬ FirstBroken before e') ∧ FirstBroken after e := by
  induction before with
  | nil =>
    have hnil : ∀ e' : ε, ¬ FirstBroken [] e' := by
      intro e' h
      cases h
    simp [hnil]
  | cons rule rules ih =>
    rw [List.cons_append]
    by_cases hkept : ∀ e', ¬ rule e'
    · simpa only [firstBroken_cons_of_kept hkept] using ih
    · simp only [firstBroken_cons_of_not_kept hkept]
      constructor
      · exact Or.inl
      · rintro (h | ⟨hnone, _⟩)
        · exact h
        · exact (hkept hnone).elim

/-- A reader of two parts checks the rules of both, in that order. -/
theorem bind_eq_error_iff_firstBroken (hx : ∀ e, x = .error e ↔ FirstBroken before e)
    (hf : ∀ a, x = .ok a → ∀ e, f a = .error e ↔ FirstBroken after e) :
    x >>= f = .error e ↔ FirstBroken (before ++ after) e := by
  rw [firstBroken_append, Outcome.bind_eq_error_iff, hx]
  refine or_congr_right ?_
  constructor
  · rintro ⟨a, ha, he⟩
    refine ⟨?_, (hf a ha e).1 he⟩
    intro e' he'
    rw [(hx e').2 he'] at ha
    contradiction
  · rintro ⟨hnone, he⟩
    cases hcase : x with
    | error e' => exact (hnone e' ((hx e').1 hcase)).elim
    | ok a => exact ⟨a, rfl, (hf a hcase e).2 he⟩

/-- A reader that checks a rule and then goes on. -/
theorem bind_eq_error_iff_firstBroken_cons (hx : ∀ e, x = .error e ↔ rule e)
    (hf : ∀ a, x = .ok a → ∀ e, f a = .error e ↔ FirstBroken rules e) :
    x >>= f = .error e ↔ FirstBroken (rule :: rules) e :=
  bind_eq_error_iff_firstBroken (fun e => (hx e).trans firstBroken_singleton.symm) hf

end rules

namespace Json
variable {v x : Json} {o : Option Json} {e : Fault} {n bits value : Nat} {name other : String}
  {fields fields' before after : List (String × Json)} {items : List Json}

/-- There is a value, and it is no whole number of so many bits: it is of another type, or out of
range. -/
inductive Unfit (bits : Nat) : Option Json → Fault → Prop
  | otherType {v : Json} (h : ∀ n, v ≠ .integer n) :
      Unfit bits (some v) (.wrongType v (.unsigned bits))
  | outOfRange {n : Int} (h : n < 0 ∨ 2 ^ bits ≤ n) :
      Unfit bits (some (.integer n)) (.outOfRange n bits)

/-- There is a number of bits, and no space has as many. -/
inductive Spaceless : Option Json → Fault → Prop
  | intro {bits : Nat} (h : bits = 0 ∨ 64 < bits) :
      Spaceless (some (.integer bits)) (.invalidWidth ⟨bits⟩)

def Missing (name : String) (fields : List (String × Json)) (e : Fault) : Prop :=
  (∀ f ∈ fields, f.1 ≠ name) ∧ e = .missingField name

/-- The rules for the form of a serial. Those for fields that are there come before those for fields
that are not, and the width is judged last. -/
def serialRules : Json → List (Fault → Prop)
  | object fields =>
    [Unfit 8 (field? "serial_bits" fields),
      Unfit 64 (field? "value" fields),
      Missing "value" fields,
      Missing "serial_bits" fields,
      Spaceless (field? "serial_bits" fields)]
  | list items =>
    [fun e => items = [] ∧ e = .tooFewItems 0,
      Unfit 64 items[0]?,
      fun e => items.length = 1 ∧ e = .tooFewItems 1,
      Unfit 8 items[1]?,
      fun e => 2 < items.length ∧ e = .tooManyItems items.length,
      Spaceless items[1]?]
  | v => [fun e => e = .wrongType v .record]

theorem field?_eq_none_iff : field? name fields = none ↔ ∀ f ∈ fields, f.1 ≠ name := by
  simp [field?]

theorem missing_iff :
    Missing name fields e ↔ field? name fields = none ∧ e = .missingField name := by
  rw [Missing, field?_eq_none_iff]

theorem not_missing (h : field? name fields = some x) (e : Fault) : ¬ Missing name fields e := by
  rw [missing_iff, h]
  rintro ⟨hnone, _⟩
  contradiction

theorem field?_of_ne (h : other ≠ name) :
    field? name (before ++ (other, x) :: after) = field? name (before ++ after) := by
  simp [field?, List.find?_append, h]

/-- Where no name comes twice, it does not matter which field of a name counts. -/
theorem field?_eq_some_iff_mem (h : (fields.map Prod.fst).Nodup) :
    field? name fields = some x ↔ (name, x) ∈ fields := by
  constructor
  · intro hx
    obtain ⟨f, hf, rfl⟩ := Option.map_eq_some_iff.1 hx
    have hname : f.1 = name := by simpa using List.find?_some hf
    rw [← hname]
    exact List.mem_reverse.1 (List.mem_of_find?_eq_some hf)
  · intro hmem
    obtain ⟨before, after, rfl⟩ := List.append_of_mem hmem
    have hafter : ∀ f ∈ after, f.1 ≠ name := by
      intro f hf hname
      rw [List.map_append, List.map_cons] at h
      have hcons := (List.nodup_append.1 h).2.1
      exact (List.nodup_cons.1 hcons).1 (List.mem_map.2 ⟨f, hf, hname⟩)
    have hnone : after.reverse.find? (·.1 == name) = none := by simpa using hafter
    simp [field?, List.find?_append, hnone]

theorem field?_perm (hp : fields.Perm fields') (h : (fields.map Prod.fst).Nodup) :
    field? name fields = field? name fields' := by
  have h' : (fields'.map Prod.fst).Nodup := (hp.map Prod.fst).nodup h
  ext x
  rw [field?_eq_some_iff_mem h, field?_eq_some_iff_mem h', hp.mem_iff]

theorem records_object_iff_mem (h : (fields.map Prod.fst).Nodup) :
    (object fields).Records value bits ↔
      ("value", integer value) ∈ fields ∧ ("serial_bits", integer bits) ∈ fields := by
  rw [records_object_iff, field?_eq_some_iff_mem h, field?_eq_some_iff_mem h]

theorem unsigned_eq_error_iff : unsigned bits v = .error e ↔ Unfit bits (some v) e := by
  have hpow : ((Nat.pow 2 bits : Nat) : Int) = 2 ^ bits := Int.natCast_pow 2 bits
  constructor
  · intro h
    cases v with
    | integer n =>
      rw [unsigned, hpow] at h
      split at h
      case isTrue => contradiction
      case isFalse hn =>
        cases h
        exact .outOfRange (by omega)
    | _ =>
      cases h
      refine .otherType ?_
      intro n hn
      cases hn
  · intro h
    cases h with
    | otherType hv =>
      cases v with
      | integer n => exact (hv n rfl).elim
      | _ => rfl
    | outOfRange hn =>
      rw [unsigned, hpow, if_neg]
      omega

/-- A field that is not there is not unfit. -/
theorem mapM_unsigned_eq_error_iff : o.mapM (unsigned bits) = .error e ↔ Unfit bits o e := by
  cases o with
  | none =>
    rw [Option.mapM_none]
    constructor
    · intro h
      contradiction
    · intro h
      cases h
  | some v =>
    rw [Option.mapM_some, ← unsigned_eq_error_iff]
    cases unsigned bits v with
    | error e' => constructor <;> (intro h; cases h; rfl)
    | ok n => constructor <;> (intro h; cases h)

/-- The rules of an object but for the last, which judges the width. -/
theorem record_object_eq_error_iff : (object fields).record = .error e ↔
    FirstBroken (object fields).serialRules.dropLast e := by
  simp only [serialRules, List.dropLast]
  refine bind_eq_error_iff_firstBroken_cons (fun _ => mapM_unsigned_eq_error_iff) ?_
  intro bits? hreadBits _
  refine bind_eq_error_iff_firstBroken_cons (fun _ => mapM_unsigned_eq_error_iff) ?_
  intro value? hreadValue e
  -- What has been read tells which of the fields are there.
  obtain ⟨hnone, rfl⟩ | ⟨value, hvalue, _, rfl⟩ := mapM_unsigned_eq_ok_iff.1 hreadValue
  · exact throw_eq_error_iff_firstBroken (missing_iff.2 ⟨hnone, rfl⟩) fun _ h => h.2
  · rw [firstBroken_cons_of_kept (not_missing hvalue)]
    obtain ⟨hnone, rfl⟩ | ⟨bits, hbits, _, rfl⟩ := mapM_unsigned_eq_ok_iff.1 hreadBits
    · exact throw_eq_error_iff_firstBroken (missing_iff.2 ⟨hnone, rfl⟩) fun _ h => h.2
    · exact pure_eq_error_iff_firstBroken (not_missing hbits)

theorem record_list_eq_error_iff : (list items).record = .error e ↔
    FirstBroken (list items).serialRules.dropLast e := by
  simp only [serialRules, List.dropLast]
  rcases items with _ | ⟨value, _ | ⟨bits, more⟩⟩
  · exact throw_eq_error_iff_firstBroken ⟨rfl, rfl⟩ fun _ h => h.2
  · rw [firstBroken_cons_of_kept fun _ h => List.cons_ne_nil _ _ h.1]
    refine bind_eq_error_iff_firstBroken_cons (fun _ => unsigned_eq_error_iff) ?_
    intro _ _ e
    exact throw_eq_error_iff_firstBroken ⟨rfl, rfl⟩ fun _ h => h.2
  · rw [firstBroken_cons_of_kept fun _ h => List.cons_ne_nil _ _ h.1]
    refine bind_eq_error_iff_firstBroken_cons (fun _ => unsigned_eq_error_iff) ?_
    intro value _ e
    rw [firstBroken_cons_of_kept fun _ h => by simp at h]
    refine bind_eq_error_iff_firstBroken_cons (fun _ => unsigned_eq_error_iff) ?_
    intro n _ e
    cases more with
    | nil => exact pure_eq_error_iff_firstBroken fun _ h => Nat.lt_irrefl 2 h.1
    | cons => exact throw_eq_error_iff_firstBroken ⟨by simp, rfl⟩ fun _ h => h.2

end Json

namespace Serial
variable {v : Json} {e : Fault} {value bits : Nat} {fields fields' : List (String × Json)}

theorem ofFields_eq_error_iff :
    ofFields value bits = .error e ↔ Json.Spaceless (some (.integer bits)) e := by
  rw [ofFields, Outcome.mapError_eq_error_iff]
  constructor
  · rintro ⟨w, hw, rfl⟩
    obtain ⟨hbits, rfl⟩ := ofBits_eq_error_iff.1 hw
    exact .intro hbits
  · intro h
    cases h with
    | intro hbits => exact ⟨_, ofBits_eq_error_iff.2 ⟨hbits, rfl⟩, rfl⟩

/-- The width is judged last, of what holds a value and a number of bits. -/
theorem ofJson_eq_error_iff_of_record {rules : List (Fault → Prop)} {o : Option Json}
    (hrecord : ∀ e, v.record = .error e ↔ FirstBroken rules e)
    (hwidth : ∀ value bits, v.Records value bits → o = some (.integer bits)) :
    ofJson v = .error e ↔ FirstBroken (rules ++ [Json.Spaceless o]) e := by
  refine bind_eq_error_iff_firstBroken hrecord ?_
  intro r hr e
  rw [firstBroken_singleton, hwidth r.1 r.2 (Json.record_eq_ok_iff.1 hr).1]
  exact ofFields_eq_error_iff

/-- What is reported is the first rule that is broken. -/
theorem ofJson_eq_error_iff : ofJson v = .error e ↔ FirstBroken v.serialRules e := by
  cases v with
  | object fields =>
    refine ofJson_eq_error_iff_of_record (fun e => Json.record_object_eq_error_iff) ?_
    intro value bits h
    exact (Json.records_object_iff.1 h).2
  | list items =>
    refine ofJson_eq_error_iff_of_record (fun e => Json.record_list_eq_error_iff) ?_
    intro value bits h
    cases h
    rfl
  | _ => exact throw_eq_error_iff_firstBroken rfl fun _ h => h

theorem existsUnique_firstBroken (h : ¬ ∃ s, ofJson v = .ok s) :
    ∃! e, FirstBroken v.serialRules e := by
  cases hv : ofJson v with
  | ok s => exact (h ⟨s, hv⟩).elim
  | error e =>
    refine ⟨e, ofJson_eq_error_iff.1 hv, ?_⟩
    intro e' he'
    rw [ofJson_eq_error_iff.2 he'] at hv
    cases hv
    rfl

theorem exists_ofJson_eq_ok_iff : (∃ s, ofJson v = .ok s) ↔
    ∃ value bits : Nat, v.Records value bits ∧ value < 2 ^ 64 ∧ 1 ≤ bits ∧ bits ≤ 64 := by
  constructor
  · rintro ⟨s, hs⟩
    obtain ⟨value, hlt, hrecords, _⟩ := ofJson_eq_ok_iff.1 hs
    exact ⟨value, s.width.bits, hrecords, hlt, s.width.one_le, s.width.le_max⟩
  · rintro ⟨value, bits, hrecords, hlt, hone, hmax⟩
    exact ⟨ofInt ⟨bits, hone, hmax⟩ value, ofJson_eq_ok_iff.2 ⟨value, hlt, hrecords, rfl⟩⟩

theorem ofBits!_of_ofJson {s : Serial} (h : ofJson v = .ok s) (hv : v.Records value bits) :
    ofBits! value bits = .ok s := by
  obtain ⟨n, _, hn, hs⟩ := ofJson_eq_ok_iff.1 h
  obtain ⟨rfl, rfl⟩ := Json.records_unique hv hn
  exact ofBits!_eq_ok_iff.2 (ofBits_eq_ok_iff.2 ⟨s.width, rfl, hs⟩)

theorem chain_of_ofJson {s : Serial} (h : ofJson v = .ok s) : s.chain = none := by
  obtain ⟨n, _, _, hs⟩ := ofJson_eq_ok_iff.1 h
  rw [hs, ofInt_chain]

/-- No other field is looked at. -/
theorem ofJson_object_congr
    (hbits : Json.field? "serial_bits" fields = Json.field? "serial_bits" fields')
    (hvalue : Json.field? "value" fields = Json.field? "value" fields') :
    ofJson (.object fields) = ofJson (.object fields') := by
  rw [ofJson, ofJson, Json.record, Json.record, hbits, hvalue]

end Serial

namespace DateSerial
variable {v : Json} {d : DateSerial} {e : Fault}

theorem ofJson_eq_ok_iff :
    ofJson v = .ok d ↔ ∃ n : Nat, v = .integer n ∧ n < 2 ^ 32 ∧ d = ofSeconds n := by
  constructor
  · intro h
    cases hn : Json.unsigned 32 v with
    | error e =>
      rw [ofJson, hn] at h
      contradiction
    | ok n =>
      rw [ofJson, hn] at h
      cases h
      obtain ⟨rfl, hlt⟩ := Json.unsigned_eq_ok_iff.1 hn
      exact ⟨n, rfl, hlt, rfl⟩
  · rintro ⟨n, rfl, hlt, rfl⟩
    have hn : Json.unsigned 32 (.integer n) = .ok n := Json.unsigned_eq_ok_iff.2 ⟨rfl, hlt⟩
    rw [ofJson, hn]
    rfl

theorem ofJson_eq_error_iff : ofJson v = .error e ↔ Json.Unfit 32 (some v) e := by
  rw [ofJson, ← Json.unsigned_eq_error_iff]
  cases Json.unsigned 32 v with
  | error e' => constructor <;> (intro h; cases h; rfl)
  | ok n => constructor <;> (intro h; cases h)

end DateSerial

/-- A serial is read from an object or a list that gives a value of 64 bits and a width, and from
nothing else. In an object neither the order of the fields nor any other field matters. Where no
serial is read, one fault is reported: that by which the form breaks the first of its rules that it
breaks. A date is read from a number of 32 bits, and from nothing else. -/
theorem json_form_or_first_fault :
    (∀ v : Json, (∃ s, Serial.ofJson v = .ok s) ↔
      ∃ value bits : Nat, v.Records value bits ∧ value < 2 ^ 64 ∧ 1 ≤ bits ∧ bits ≤ 64) ∧
    (∀ (v : Json) (s : Serial) (value bits : Nat), Serial.ofJson v = .ok s →
      v.Records value bits → Serial.ofBits! value bits = .ok s ∧ s.chain = none) ∧
    (∀ (fields : List (String × Json)) (value bits : Nat), (fields.map Prod.fst).Nodup →
      ((Json.object fields).Records value bits ↔
        ("value", .integer value) ∈ fields ∧ ("serial_bits", .integer bits) ∈ fields)) ∧
    (∀ fields fields' : List (String × Json), fields.Perm fields' →
      (fields.map Prod.fst).Nodup →
      Serial.ofJson (.object fields) = Serial.ofJson (.object fields')) ∧
    (∀ (before after : List (String × Json)) (name : String) (x : Json),
      name ≠ "value" → name ≠ "serial_bits" →
      Serial.ofJson (.object (before ++ (name, x) :: after)) =
        Serial.ofJson (.object (before ++ after))) ∧
    (∀ (v : Json) (e : Fault), Serial.ofJson v = .error e ↔ FirstBroken v.serialRules e) ∧
    (∀ v : Json, (¬ ∃ s, Serial.ofJson v = .ok s) → ∃! e, FirstBroken v.serialRules e) ∧
    (∀ (v : Json) (d : DateSerial), DateSerial.ofJson v = .ok d ↔
      ∃ n : Nat, v = .integer n ∧ n < 2 ^ 32 ∧ d = .ofSeconds n) ∧
    (∀ n : Nat, n < 2 ^ 32 → (DateSerial.ofSeconds n).seconds = n ∧
      (DateSerial.ofSeconds n).serial.chain = none) ∧
    (∀ (v : Json) (e : Fault), DateSerial.ofJson v = .error e ↔ Json.Unfit 32 (some v) e) := by
  refine ⟨fun v => Serial.exists_ofJson_eq_ok_iff, ?_,
    fun fields value bits => Json.records_object_iff_mem, ?_, ?_,
    fun v e => Serial.ofJson_eq_error_iff, fun v => Serial.existsUnique_firstBroken,
    fun v d => DateSerial.ofJson_eq_ok_iff, ?_, fun v e => DateSerial.ofJson_eq_error_iff⟩
  · intro v s value bits hs hv
    exact ⟨Serial.ofBits!_of_ofJson hs hv, Serial.chain_of_ofJson hs⟩
  · intro fields fields' hp hnames
    exact Serial.ofJson_object_congr (Json.field?_perm hp hnames) (Json.field?_perm hp hnames)
  · intro before after name x hvalue hbits
    exact Serial.ofJson_object_congr (Json.field?_of_ne hbits) (Json.field?_of_ne hvalue)
  · intro n hlt
    exact ⟨Serial.ofInt_value_of_lt hlt, rfl⟩

/-- A width of 300 is reported before a value that is a text, a third item before a width of 65, and
that width where it is all that is wrong. -/
theorem json_form_or_first_fault_of_several :
    Serial.ofJson (.object [("value", .text "x"), ("serial_bits", .integer 300)]) =
      .error (.outOfRange 300 8) ∧
    FirstBroken (Json.list [.integer 1, .integer 65, .null]).serialRules (.tooManyItems 3) ∧
    (∃! e, FirstBroken (Json.list [.integer 1, .integer 65]).serialRules e) ∧
    (∃ s, Serial.ofJson
        (.object [("serial_bits", .integer 8), ("note", .null), ("value", .integer 300)]) = .ok s ∧
      Serial.ofJson (.object [("value", .integer 300), ("serial_bits", .integer 8)]) = .ok s ∧
      Serial.ofBits! 300 8 = .ok s) ∧
    ∃ d, DateSerial.ofJson (.integer 4294967295) = .ok d ∧ d.seconds = 4294967295 ∧
      d.serial.chain = none := by
  obtain ⟨hread, hmade, hrecords, hperm, hother, hfault, honly, hdate, hfresh, _⟩ :=
    json_form_or_first_fault
  have hswap : [("value", Json.integer 300), ("serial_bits", .integer 8)].Perm
      [("serial_bits", .integer 8), ("value", .integer 300)] := .swap ..
  have hnote := hother [("serial_bits", .integer 8)] [("value", .integer 300)] "note" .null
    (by decide) (by decide)
  have horder := hperm _ _ hswap (by decide)
  have hforms :
      (Json.object [("value", .integer 300), ("serial_bits", .integer 8)]).Records 300 8 :=
    (hrecords _ 300 8 (by decide)).2 ⟨.head _, .tail _ (.head _)⟩
  obtain ⟨s, hs⟩ := (hread _).2 ⟨300, 8, hforms, by decide⟩
  have hwidth : Serial.ofJson (.list [.integer 1, .integer 65]) = .error (.invalidWidth ⟨65⟩) := rfl
  refine ⟨(hfault _ _).2 (.here (.outOfRange (by decide))), (hfault _ _).1 rfl, honly _ ?_, ?_, ?_⟩
  · rintro ⟨s, hs⟩
    cases hwidth.symm.trans hs
  · exact ⟨s, hnote.trans (horder.symm.trans hs), hs, (hmade _ _ 300 8 hs hforms).1⟩
  · obtain ⟨hseconds, hchain⟩ := hfresh 4294967295 (by decide)
    exact ⟨_, (hdate _ _).2 ⟨4294967295, rfl, by decide, rfl⟩, hseconds, hchain⟩

end SerialNumber
