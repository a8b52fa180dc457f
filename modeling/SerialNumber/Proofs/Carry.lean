import SerialNumber.Operand
import SerialNumber.Outcome

/-! Carries past the end of the space. A run of additions carries at most once. On zero it can only
stay where it is, and beyond zero nothing more can be added, not even zero. -/
namespace SerialNumber

/-- One addition of a run: where it starts, the amount, and where it gets to. -/
structure Addition where
  left : Serial
  addend : Serial
  result : Serial
  deriving DecidableEq, Repr

/-- The sum reaches the end of the space or passes it. -/
def Addition.Carries (a : Addition) : Prop :=
  a.left.width.modulus ≤ a.left.value + a.addend.value

instance : DecidablePred Addition.Carries := fun a =>
  inferInstanceAs (Decidable (a.left.width.modulus ≤ a.left.value + a.addend.value))

namespace Serial
variable {s t n : Serial}

/-- The chain has come to zero by a carry. -/
def OnZero (s : Serial) : Prop := s.value = 0 ∧ s.chain = some s.width.modulus

/-- The chain has carried past zero. -/
def Beyond (s : Serial) : Prop := s.value ≠ 0 ∧ s.chain = some (s.value + s.width.modulus)

theorem onZero_add_iff (hs : s.OnZero) :
    s.add n = .ok t ↔ n.width = s.width ∧ n.value = 0 ∧ t = s := by
  obtain ⟨hv, hc⟩ := hs
  have hpos : s.position = s.width.modulus := position_of_chain_some hc
  rw [add_eq_ok_iff, refusal?_eq_none_iff, hpos]
  constructor
  · rintro ⟨⟨hw, _, hend⟩, rfl⟩
    have hn : n.value = 0 := by
      rcases hend with hnone | hle
      · rw [hc] at hnone
        contradiction
      · omega
    refine ⟨hw.symm, hn, Serial.ext rfl ?_ ?_⟩
    · rw [advance_value, hn, hv, Nat.add_zero, Nat.zero_mod]
    · rw [advance_chain, hn, hpos, hc, Nat.add_zero]
  · rintro ⟨hw, hn, rfl⟩
    refine ⟨⟨hw.symm, by omega, Or.inr (by omega)⟩, Serial.ext rfl ?_ ?_⟩
    · rw [advance_value, hn, hv, Nat.add_zero, Nat.zero_mod]
    · rw [advance_chain, hn, hpos, hc, Nat.add_zero]

theorem beyond_add_ne_ok (hs : s.Beyond) : s.add n ≠ .ok t := by
  obtain ⟨hv, hc⟩ := hs
  intro h
  obtain ⟨_, _, hend⟩ := refusal?_eq_none_iff.1 (add_eq_ok_iff.1 h).1
  rw [position_of_chain_some hc, hc] at hend
  rcases hend with hnone | hle
  · contradiction
  · omega

theorem beyond_add (hs : s.Beyond) (hw : n.width = s.width) (hn : n.value ≤ s.width.maxAddend) :
    s.add n = .error .chainOverflow := by
  obtain ⟨hv, hc⟩ := hs
  have hpos := position_of_chain_some hc
  have hpast : s.width.modulus < s.position + n.value := by omega
  rw [add_eq_error_iff, refusal?, if_neg (not_not_intro hw.symm), if_neg (Nat.not_lt_of_le hn),
    if_pos ⟨by rw [hc, Option.isSome_some], hpast⟩]

/-- A chain that has not carried takes what is left up to the end of the space. -/
theorem add_isOk_iff_of_position_eq_value (hpos : s.position = s.value) (hc : s.chain ≠ none) :
    (∃ t, s.add n = .ok t) ↔
      n.width = s.width ∧ n.value ≤ min s.width.maxAddend (s.width.modulus - s.value) := by
  have hv := s.value_lt
  have hok : (∃ t, s.add n = .ok t) ↔ s.refusal? n = none := by
    simp only [add_eq_ok_iff, exists_and_left, exists_eq, and_true]
  rw [hok, refusal?_eq_none_iff, hpos, Nat.le_min]
  constructor
  · rintro ⟨hw, hmax, hend⟩
    have hle := hend.resolve_left hc
    exact ⟨hw.symm, hmax, by omega⟩
  · rintro ⟨hw, hmax, hle⟩
    exact ⟨hw.symm, hmax, Or.inr (by omega)⟩

theorem position_eq_value_of_add (hpos : s.position = s.value) (h : s.add n = .ok t)
    (hno : s.value + n.value < s.width.modulus) : t.position = t.value ∧ t.chain ≠ none := by
  obtain ⟨_, rfl⟩ := add_eq_ok_iff.1 h
  constructor
  · rw [advance_position, advance_value_of_lt hno, hpos]
  · simp

/-- A carry ends on zero, or beyond it if no chain stood in its way. -/
theorem onZero_or_beyond_of_add (hpos : s.position = s.value) (h : s.add n = .ok t)
    (hcarry : s.width.modulus ≤ s.value + n.value) :
    t.OnZero ∨ s.chain = none ∧ t.Beyond := by
  obtain ⟨hn, rfl⟩ := add_eq_ok_iff.1 h
  obtain ⟨_, hmax, hend⟩ := refusal?_eq_none_iff.1 hn
  have hm := s.width.modulus_eq
  have hh := s.width.maxAddend_lt_half
  have hval := advance_value_of_le hcarry (by omega)
  have hchain : (s.advance n.value).chain = some ((s.advance n.value).value + s.width.modulus) := by
    rw [advance_chain, hval, hpos, Nat.sub_add_cancel hcarry]
  by_cases hzero : (s.advance n.value).value = 0
  · left
    refine ⟨hzero, ?_⟩
    rw [hchain, hzero, Nat.zero_add, advance_width]
  · right
    refine ⟨?_, hzero, hchain⟩
    rcases hend with hnone | hle
    · exact hnone
    · omega

end Serial

namespace Operand
variable {o p q : Operand} {n : Serial} {a c : Addition} {as before after : List Addition}

def add : Operand → Serial → Except AddError Operand
  | serial s, n => (s.add n).map serial
  | date d, n => (d.add n).map date

/-- What can be done without clearing the chain: to add, and to take the serial out of a date. The
list holds the additions made. -/
inductive Run (o : Operand) : List Addition → Operand → Prop
  | start : Run o [] o
  | add {as : List Addition} {p q : Operand} {n : Serial} (h : Run o as p) (hq : p.add n = .ok q) :
      Run o (as ++ [⟨p.underlying, n, q.underlying⟩]) q
  | unwrap {as : List Addition} {d : DateSerial} (h : Run o as (date d)) :
      Run o as (serial d.serial)

theorem underlying_add (p : Operand) (n : Serial) :
    (p.add n).map underlying = p.underlying.add n := by
  cases p with
  | serial s => cases h : s.add n <;> simp [add, underlying, h, Except.map]
  | date d =>
    rw [underlying, ← DateSerial.add_serial]
    cases h : d.add n <;> simp [add, underlying, h, Except.map]

theorem underlying_add_of_ok (h : p.add n = .ok q) : p.underlying.add n = .ok q.underlying := by
  rw [← underlying_add, h]
  rfl

theorem exists_add_eq_ok_iff :
    (∃ q, p.add n = .ok q) ↔ ∃ t, p.underlying.add n = .ok t := by
  rw [← underlying_add]
  cases h : p.add n <;> simp [Except.map]

theorem add_eq_error_iff {e : AddError} :
    p.add n = .error e ↔ p.underlying.add n = .error e := by
  rw [← underlying_add]
  exact Outcome.map_eq_error_iff.symm

/-- Adding to a serial gives a serial, and to a date a date. -/
theorem eq_of_add (h : p.add n = .ok q) (hq : q.underlying = p.underlying) : q = p := by
  cases p with
  | serial s =>
    obtain ⟨t, _, rfl⟩ := Outcome.map_eq_ok_iff.1 h
    rw [show t = s from hq]
  | date d =>
    obtain ⟨e, _, rfl⟩ := Outcome.map_eq_ok_iff.1 h
    rw [DateSerial.ext (show e.serial = d.serial from hq)]

/-- How far a run can have got: it has not carried, it has carried onto zero and stayed there, or
its only addition has carried beyond zero. -/
inductive Phase : List Addition → Serial → Prop
  | within {as : List Addition} {s : Serial} (hno : ∀ a ∈ as, ¬ a.Carries)
      (hpos : s.position = s.value) (hfresh : s.chain = none → as = []) : Phase as s
  | zero {before after : List Addition} {c : Addition} {s : Serial}
      (hbefore : ∀ a ∈ before, ¬ a.Carries) (hc : c.Carries) (hr : c.result.value = 0)
      (hafter : ∀ a ∈ after, ¬ a.Carries) (hs : s.OnZero) : Phase (before ++ c :: after) s
  | beyond {c : Addition} {s : Serial} (hc : c.Carries) (hr : c.result.value ≠ 0)
      (hs : s.Beyond) : Phase [c] s

theorem phase_add {s t : Serial} (hs : Phase as s) (h : s.add n = .ok t) :
    Phase (as ++ [⟨s, n, t⟩]) t := by
  cases hs with
  | within hno hpos hfresh =>
    by_cases hcarry : s.width.modulus ≤ s.value + n.value
    · rcases Serial.onZero_or_beyond_of_add hpos h hcarry with hzero | ⟨hnone, hbeyond⟩
      · exact .zero hno hcarry hzero.1 (by simp) hzero
      · rw [hfresh hnone]
        exact .beyond hcarry hbeyond.1 hbeyond
    · -- Without a carry the chain goes on at the value.
      obtain ⟨hpos', hchain⟩ :=
        Serial.position_eq_value_of_add hpos h (Nat.lt_of_not_le hcarry)
      refine .within ?_ hpos' (fun hnone => (hchain hnone).elim)
      intro a ha
      rcases List.mem_append.1 ha with ha | ha
      · exact hno a ha
      · rw [List.mem_singleton.1 ha]
        exact hcarry
  | @zero before after c _ hbefore hc hr hafter hzero =>
    obtain ⟨_, hn, rfl⟩ := (Serial.onZero_add_iff hzero).1 h
    have hstay : ¬ Addition.Carries ⟨t, n, t⟩ := by
      have hm := t.width.modulus_pos
      have hv := hzero.1
      intro hcarry
      simp only [Addition.Carries] at hcarry
      omega
    rw [List.append_assoc, List.cons_append]
    refine .zero hbefore hc hr ?_ hzero
    intro a ha
    rcases List.mem_append.1 ha with ha | ha
    · exact hafter a ha
    · rw [List.mem_singleton.1 ha]
      exact hstay
  | beyond _ _ hbeyond => exact (Serial.beyond_add_ne_ok hbeyond h).elim

theorem phase_run (ho : o.underlying.chain = none) (h : Run o as p) : Phase as p.underlying := by
  induction h with
  | start => exact .within (by simp) (Serial.position_of_chain_none ho) (fun _ => rfl)
  | add _ hq ih => exact phase_add ih (underlying_add_of_ok hq)
  | unwrap _ ih => exact ih

theorem phase_countP_le {s : Serial} (hs : Phase as s) :
    as.countP (fun a => decide a.Carries) ≤ 1 := by
  have hzero : ∀ {bs : List Addition}, (∀ a ∈ bs, ¬ a.Carries) →
      bs.countP (fun a => decide a.Carries) = 0 := by
    intro bs hbs
    exact List.countP_eq_zero.2 (fun a ha => by simpa using hbs a ha)
  cases hs with
  | within hno _ _ => rw [hzero hno]; exact Nat.zero_le 1
  | zero hbefore hc _ hafter _ => simp [hzero hbefore, hzero hafter, hc]
  | beyond hc _ _ => simp [hc]

/-- Which carry a run has made is seen from where it stands. -/
theorem phase_of_carries {s : Serial} (hs : Phase as s) (ha : a ∈ as) (hc : a.Carries) :
    a.result.value = 0 ∧ s.OnZero ∨ as = [a] ∧ a.result.value ≠ 0 ∧ s.Beyond := by
  cases hs with
  | within hno _ _ => exact (hno a ha hc).elim
  | zero hbefore _ hr hafter hzero =>
    left
    rcases List.mem_append.1 ha with ha | ha
    · exact (hbefore a ha hc).elim
    · rcases List.mem_cons.1 ha with rfl | ha
      · exact ⟨hr, hzero⟩
      · exact (hafter a ha hc).elim
  | beyond _ hr hbeyond =>
    right
    rw [List.mem_singleton.1 ha]
    exact ⟨rfl, hr, hbeyond⟩

theorem phase_onZero {s : Serial} (hs : Phase as s) (ha : a ∈ as) (hc : a.Carries)
    (hr : a.result.value = 0) : s.OnZero := by
  rcases phase_of_carries hs ha hc with ⟨_, hzero⟩ | ⟨_, hr', _⟩
  · exact hzero
  · exact (hr' hr).elim

theorem phase_beyond {s : Serial} (hs : Phase as s) (ha : a ∈ as) (hc : a.Carries)
    (hr : a.result.value ≠ 0) : s.Beyond := by
  rcases phase_of_carries hs ha hc with ⟨hr', _⟩ | ⟨_, _, hbeyond⟩
  · exact (hr hr').elim
  · exact hbeyond

theorem phase_position {s : Serial} (hs : Phase as s) (hno : ∀ a ∈ as, ¬ a.Carries) :
    s.position = s.value := by
  cases hs with
  | within _ hpos _ => exact hpos
  | zero _ hc _ _ _ => exact (hno _ (by simp) hc).elim
  | beyond hc _ _ => exact (hno _ (by simp) hc).elim

theorem add_iff_of_onZero (h : p.underlying.OnZero) :
    p.add n = .ok q ↔ n.width = p.underlying.width ∧ n.value = 0 ∧ q = p := by
  constructor
  · intro hq
    obtain ⟨hw, hn, hstay⟩ := (Serial.onZero_add_iff h).1 (underlying_add_of_ok hq)
    exact ⟨hw, hn, eq_of_add hq hstay⟩
  · rintro ⟨hw, hn, rfl⟩
    obtain ⟨r, hr⟩ := exists_add_eq_ok_iff.2 ⟨_, (Serial.onZero_add_iff h).2 ⟨hw, hn, rfl⟩⟩
    obtain ⟨_, _, hstay⟩ := (Serial.onZero_add_iff h).1 (underlying_add_of_ok hr)
    rw [hr, eq_of_add hr hstay]

/-- A run from an operand without a chain carries at most once: by its first addition, or onto zero.
From then on it is stuck, on zero or beyond, and until then it can go as far as to zero. -/
theorem run_carries_once (ho : o.underlying.chain = none) (h : Run o as p) :
    as.countP (fun a => decide a.Carries) ≤ 1 ∧
    (∀ i a, as[i]? = some a → a.Carries → i = 0 ∨ a.result.value = 0) ∧
    ((∃ a ∈ as, a.Carries ∧ a.result.value = 0) → ∀ n q,
      p.add n = .ok q ↔ n.width = p.underlying.width ∧ n.value = 0 ∧ q = p) ∧
    ((∃ a ∈ as, a.Carries ∧ a.result.value ≠ 0) →
      (∀ n q, p.add n ≠ .ok q) ∧
      ∀ n : Serial, n.width = p.underlying.width → n.value ≤ p.underlying.width.maxAddend →
        p.add n = .error .chainOverflow) ∧
    ((∀ a ∈ as, ¬ a.Carries) → p.underlying.chain ≠ none → ∀ n : Serial,
      (∃ q, p.add n = .ok q) ↔ n.width = p.underlying.width ∧
        n.value ≤ min p.underlying.width.maxAddend
          (p.underlying.width.modulus - p.underlying.value)) := by
  have hphase := phase_run ho h
  refine ⟨phase_countP_le hphase, ?_, ?_, ?_, ?_⟩
  · intro i a hi hc
    rcases phase_of_carries hphase (List.mem_of_getElem? hi) hc with ⟨hr, _⟩ | ⟨rfl, _, _⟩
    · exact Or.inr hr
    · have hlen : i < [a].length := (List.getElem?_eq_some_iff.1 hi).1
      exact Or.inl (by simpa using hlen)
  · rintro ⟨a, ha, hc, hr⟩ n q
    exact add_iff_of_onZero (phase_onZero hphase ha hc hr)
  · rintro ⟨a, ha, hc, hr⟩
    have hbeyond := phase_beyond hphase ha hc hr
    constructor
    · intro n q hq
      exact Serial.beyond_add_ne_ok hbeyond (underlying_add_of_ok hq)
    · intro n hw hn
      exact add_eq_error_iff.2 (Serial.beyond_add hbeyond hw hn)
  · intro hno hchain n
    rw [exists_add_eq_ok_iff]
    exact Serial.add_isOk_iff_of_position_eq_value (phase_position hphase hno) hchain

/-- A date that a second addition takes onto zero, and `200 + 100` in a space of 8 bits. -/
theorem run_carries_once_onto_zero_and_beyond :
    (∃ as p, Run (date (.ofSeconds 4294967200)) as p ∧ as.length = 2 ∧
      ∀ n q, p.add n = .ok q ↔ n.width = .standard ∧ n.value = 0 ∧ q = p) ∧
    ∃ as p, Run (serial (.ofInt { bits := 8 } 200)) as p ∧ as.length = 1 ∧
      p.add (.ofInt { bits := 8 } 0) = .error .chainOverflow := by
  have hdate : Run (date (.ofSeconds 4294967200)) _ _ :=
    .add (n := .ofInt .standard 36) (.unwrap (.add (n := .ofInt .standard 60) .start rfl)) rfl
  have hserial : Run (serial (.ofInt { bits := 8 } 200)) _ _ :=
    .add (n := .ofInt { bits := 8 } 100) .start rfl
  obtain ⟨_, _, hzero, _, _⟩ := run_carries_once rfl hdate
  obtain ⟨_, _, _, hbeyond, _⟩ := run_carries_once rfl hserial
  refine ⟨⟨_, _, hdate, rfl, hzero ⟨_, List.mem_cons_of_mem _ (List.mem_cons_self ..), ?_⟩⟩,
    ⟨_, _, hserial, rfl, (hbeyond ⟨_, List.mem_cons_self .., ?_⟩).2 _ rfl ?_⟩⟩
  · decide
  · decide
  · decide

end Operand
end SerialNumber
