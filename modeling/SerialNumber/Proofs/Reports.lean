import Mathlib.Algebra.Order.Ring.Int
import Mathlib.Logic.Function.Basic
import SerialNumber.Proofs.Carry

/-! Reports of refused additions. Additions to stored values go on after a refusal, which leaves the
store as it was. Each refusal makes one report, from which it can be told why it was made, and the
store ends where the additions that succeed lead by themselves. -/
namespace SerialNumber

theorem AddError.message_inj {a b : AddError} : a.message = b.message ↔ a = b := by
  cases a <;> cases b <;> simp [message]

namespace Rejection
variable {r : Rejection} {e : AddError} {s n : Serial}

/-- The rule of addition, applied to nothing but what is reported of the operands. -/
def verdict? (r : Rejection) : Option AddError :=
  if r.width ≠ r.addendWidth then some .widthMismatch
  else if 2 ^ (r.width - 1) - 1 < r.addend then some .addendTooLarge
  else
    match r.chain with
    | none => none
    | some c => if 2 ^ r.width < c + r.addend then some .chainOverflow else none

/-- What is reported of the operands is all that the rule looks at. -/
theorem verdict?_ofOperands : (ofOperands s n e).verdict? = s.refusal? n := by
  have hwidth : s.width.bits ≠ n.width.bits ↔ s.width ≠ n.width := by
    rw [ne_eq, ne_eq, Width.ext_iff]
  rw [verdict?, Serial.refusal?]
  refine if_congr hwidth rfl (if_congr Iff.rfl rfl ?_)
  cases hc : s.chain with
  | none => simp [ofOperands, hc]
  | some c =>
    have hmodulus : s.width.modulus = 2 ^ s.width.bits := rfl
    simp [ofOperands, hc, Serial.position_of_chain_some hc, hmodulus]

/-- The message tells the error. -/
theorem message_eq_iff :
    r.message = "rejected serial number addition: " ++ e.message ↔ r.error = e :=
  (String.append_right_inj _).trans AddError.message_inj

end Rejection

namespace Operand
variable {p q : Operand} {n : Serial} {e : AddError} {log : List Rejection}

/-- Adds, and reports a refusal. -/
def addReporting : Operand → Serial → Reporting (Except AddError Operand)
  | serial s, n => do return (← s.addReporting n).map fun t => serial t.1
  | date d, n => do return (← d.addReporting n).map date

theorem addReporting_of_ok (h : p.add n = .ok q) : (p.addReporting n).run log = (.ok q, log) := by
  cases p with
  | serial s =>
    obtain ⟨t, ht, rfl⟩ := Outcome.map_eq_ok_iff.1 h
    obtain ⟨hn, rfl⟩ := Serial.add_eq_ok_iff.1 ht
    rw [addReporting, StateT.run_bind, Serial.addReporting_of_refusal?_eq_none hn]
    rfl
  | date d =>
    obtain ⟨d', _, rfl⟩ := Outcome.map_eq_ok_iff.1 h
    have hsum : d.serial.add n = .ok d'.serial := underlying_add_of_ok h
    obtain ⟨hn, hserial⟩ := Serial.add_eq_ok_iff.1 hsum
    obtain rfl : d' = ⟨d.serial.advance n.value, Serial.advance_width.trans d.width_eq⟩ :=
      DateSerial.ext hserial
    rw [addReporting, DateSerial.addReporting, StateT.run_bind, StateT.run_bind,
      Serial.addReporting_of_refusal?_eq_none hn]
    rfl

theorem addReporting_of_error (h : p.add n = .error e) :
    (p.addReporting n).run log = (.error e, log ++ [.ofOperands p.underlying n e]) := by
  cases p with
  | serial s =>
    have hn : s.refusal? n = some e := Serial.add_eq_error_iff.1 (add_eq_error_iff.1 h)
    rw [addReporting, StateT.run_bind, Serial.addReporting_of_refusal?_eq_some hn]
    rfl
  | date d =>
    have hn : d.serial.refusal? n = some e := Serial.add_eq_error_iff.1 (add_eq_error_iff.1 h)
    rw [addReporting, DateSerial.addReporting, StateT.run_bind, StateT.run_bind,
      Serial.addReporting_of_refusal?_eq_some hn]
    rfl

end Operand

/-- Values that are stored, each at its place. -/
abbrev Store (ι : Type) := ι → Operand

/-- What is to be added: a serial, or what is stored at a place. -/
inductive Addend (ι : Type) where
  | given (n : Serial)
  | stored (i : ι)

def Addend.read {ι : Type} (σ : Store ι) : Addend ι → Serial
  | given n => n
  | stored i => (σ i).underlying

/-- The value at a place is to be replaced by its sum with the addend. -/
structure Request (ι : Type) where
  place : ι
  addend : Addend ι

/-- A request, the operands as they were when it was dealt with, and the answer. -/
structure Attempt (ι : Type) where
  request : Request ι
  left : Operand
  right : Serial
  answer : Except AddError Operand

namespace Attempt
variable {ι : Type}

def succeeded (a : Attempt ι) : Bool := a.answer.isOk

/-- What has to be reported of it. -/
def report? (a : Attempt ι) : Option Rejection :=
  match a.answer with
  | .ok _ => none
  | .error e => some
    { level := .debug
      width := a.left.underlying.width.bits
      value := a.left.underlying.value
      chain := a.left.underlying.chain
      addend := a.right.value
      addendWidth := a.right.width.bits
      error := e }

variable {a : Attempt ι} {r : Rejection}

theorem report?_eq_some_iff : a.report? = some r ↔
    a.answer = .error r.error ∧ r = .ofOperands a.left.underlying a.right r.error := by
  cases h : a.answer with
  | ok q => simp [report?, h]
  | error e =>
    simp only [report?, h, Option.some.injEq, Except.error.injEq]
    constructor
    · rintro rfl
      exact ⟨rfl, rfl⟩
    · rintro ⟨rfl, hr⟩
      exact hr.symm

theorem isSome_report? : a.report?.isSome = !a.succeeded := by
  cases h : a.answer <;> simp [report?, succeeded, h, Except.isOk, Except.toBool]

theorem filterMap_report?_filter (as : List (Attempt ι)) :
    (as.filter succeeded).filterMap report? = [] := by
  rw [List.filterMap_eq_nil_iff]
  intro a ha
  have hsucceeded := (List.mem_filter.1 ha).2
  rw [← Option.isNone_iff_eq_none, ← Option.not_isSome, isSome_report?, hsucceeded]
  rfl

end Attempt

namespace Store
variable {ι : Type} [DecidableEq ι] {σ τ : Store ι} {r : Request ι} {rs : List (Request ι)}
  {as : List (Attempt ι)} {q : Operand} {e : AddError} {log : List Rejection}

/-- Puts the sum in the place of the value. A refusal leaves the store as it was. -/
def perform (σ : Store ι) (r : Request ι) :
    Reporting (Except AddError Operand × Store ι) := do
  match ← (σ r.place).addReporting (r.addend.read σ) with
  | .ok q => pure (.ok q, Function.update σ r.place q)
  | .error e => pure (.error e, σ)

/-- Deals with one request after the other and gives all the answers. -/
def performAll (σ : Store ι) :
    List (Request ι) → Reporting (List (Except AddError Operand) × Store ι)
  | [] => pure ([], σ)
  | r :: rs => do
    let (answer, σ) ← σ.perform r
    let (answers, σ) ← performAll σ rs
    pure (answer :: answers, σ)

/-- The attempts that lead from one store to another. A sum takes the place of the value that it was
made of, and a refusal changes nothing. -/
inductive Transcript : Store ι → List (Attempt ι) → Store ι → Prop
  | nil {σ : Store ι} : Transcript σ [] σ
  | added {σ τ : Store ι} {r : Request ι} {q : Operand} {as : List (Attempt ι)}
      (hq : (σ r.place).add (r.addend.read σ) = .ok q)
      (h : Transcript (Function.update σ r.place q) as τ) :
      Transcript σ (⟨r, σ r.place, r.addend.read σ, .ok q⟩ :: as) τ
  | refused {σ τ : Store ι} {r : Request ι} {e : AddError} {as : List (Attempt ι)}
      (he : (σ r.place).add (r.addend.read σ) = .error e) (h : Transcript σ as τ) :
      Transcript σ (⟨r, σ r.place, r.addend.read σ, .error e⟩ :: as) τ

theorem perform_of_ok (hq : (σ r.place).add (r.addend.read σ) = .ok q) :
    (σ.perform r).run log = ((.ok q, Function.update σ r.place q), log) := by
  rw [perform, StateT.run_bind, Operand.addReporting_of_ok hq]
  rfl

theorem perform_of_error (he : (σ r.place).add (r.addend.read σ) = .error e) :
    (σ.perform r).run log =
      ((.error e, σ), log ++ [.ofOperands (σ r.place).underlying (r.addend.read σ) e]) := by
  rw [perform, StateT.run_bind, Operand.addReporting_of_error he]
  rfl

theorem exists_transcript (σ : Store ι) (rs : List (Request ι)) :
    ∃ as τ, Transcript σ as τ ∧ as.map Attempt.request = rs := by
  induction rs generalizing σ with
  | nil => exact ⟨[], σ, .nil, rfl⟩
  | cons r rs ih =>
    cases hr : (σ r.place).add (r.addend.read σ) with
    | ok q =>
      obtain ⟨as, τ, h, rfl⟩ := ih (Function.update σ r.place q)
      exact ⟨_, τ, .added hr h, rfl⟩
    | error e =>
      obtain ⟨as, τ, h, rfl⟩ := ih σ
      exact ⟨_, τ, .refused hr h, rfl⟩

theorem performAll_cons {σ' τ : Store ι} {answer : Except AddError Operand}
    {answers : List (Except AddError Operand)} {log log' log'' : List Rejection}
    (h : (σ.perform r).run log = ((answer, σ'), log'))
    (hs : (σ'.performAll rs).run log' = ((answers, τ), log'')) :
    (σ.performAll (r :: rs)).run log = ((answer :: answers, τ), log'') := by
  rw [performAll, StateT.run_bind, h]
  change (σ'.performAll rs >>= fun p => pure (answer :: p.1, p.2)).run log' = _
  rw [StateT.run_bind, hs]
  rfl

/-- A run answers and reports as its transcript says. -/
theorem performAll_of_transcript (h : Transcript σ as τ) (log : List Rejection) :
    (σ.performAll (as.map Attempt.request)).run log =
      ((as.map Attempt.answer, τ), log ++ as.filterMap Attempt.report?) := by
  induction h generalizing log with
  | nil =>
    rw [List.filterMap_nil, List.append_nil]
    rfl
  | added hq _ ih =>
    rw [List.map_cons, performAll_cons (perform_of_ok hq) (ih log)]
    rfl
  | refused he _ ih =>
    -- The report comes before those of the rest of the run.
    rw [List.map_cons, performAll_cons (perform_of_error he) (ih _), List.append_assoc]
    rfl

theorem transcript_filter (h : Transcript σ as τ) :
    Transcript σ (as.filter Attempt.succeeded) τ := by
  induction h with
  | nil => exact .nil
  | added hq _ ih => exact .added hq ih
  | refused _ _ ih => exact ih

/-- The answer is that of the rule, for the operands as they were. -/
theorem add_of_mem (h : Transcript σ as τ) {a : Attempt ι} (ha : a ∈ as) :
    a.left.add a.right = a.answer := by
  induction h with
  | nil => contradiction
  | added hq _ ih =>
    rcases List.mem_cons.1 ha with rfl | ha
    · exact hq
    · exact ih ha
  | refused he _ ih =>
    rcases List.mem_cons.1 ha with rfl | ha
    · exact he
    · exact ih ha

/-- The reported fields alone give the error that was answered. -/
theorem verdict?_of_report? (h : Transcript σ as τ) {a : Attempt ι} (ha : a ∈ as) {r : Rejection}
    (hr : a.report? = some r) : r.verdict? = some r.error := by
  obtain ⟨hanswer, hfields⟩ := Attempt.report?_eq_some_iff.1 hr
  have hadd : a.left.add a.right = .error r.error := (add_of_mem h ha).trans hanswer
  rw [hfields, Rejection.verdict?_ofOperands]
  exact Serial.add_eq_error_iff.1 (Operand.add_eq_error_iff.1 hadd)

/-- A run of additions to stored serials and dates goes by a transcript. It makes one report for
each refusal and none for a sum, in the order of the requests, of the operands as they were. What is
reported of them gives by itself the error that the message tells, and that is what was answered.
Without the requests that were refused the run ends in the same store and reports nothing. -/
theorem refusals_reported {ι : Type} [DecidableEq ι] (σ : Store ι) (rs : List (Request ι))
    (log : List Rejection) : ∃ (as : List (Attempt ι)) (τ : Store ι),
      Transcript σ as τ ∧ as.map Attempt.request = rs ∧
      (σ.performAll rs).run log =
        ((as.map Attempt.answer, τ), log ++ as.filterMap Attempt.report?) ∧
      (as.filterMap Attempt.report?).length = as.countP (fun a => !a.succeeded) ∧
      (∀ a ∈ as, ∀ r, a.report? = some r →
        a.answer = .error r.error ∧ r.verdict? = some r.error ∧
        ∀ e, r.message = "rejected serial number addition: " ++ e.message ↔ r.error = e) ∧
      (σ.performAll ((as.filter Attempt.succeeded).map Attempt.request)).run log =
        (((as.filter Attempt.succeeded).map Attempt.answer, τ), log) := by
  obtain ⟨as, τ, h, rfl⟩ := exists_transcript σ rs
  refine ⟨as, τ, h, rfl, performAll_of_transcript h log, ?_, ?_, ?_⟩
  · rw [List.length_filterMap_eq_countP]
    simp only [Attempt.isSome_report?]
  · intro a ha r hr
    obtain ⟨hanswer, _⟩ := Attempt.report?_eq_some_iff.1 hr
    exact ⟨hanswer, verdict?_of_report? h ha hr, fun e => Rejection.message_eq_iff⟩
  · rw [performAll_of_transcript (transcript_filter h), Attempt.filterMap_report?_filter,
      List.append_nil]

/-- In 8 bits nothing can be added after `200 + 100`. A date takes the amount it stands at, but no
serial of 8 bits and no half of the ring. -/
theorem refusals_reported_of_each_kind : ∃ (as : List (Attempt Bool)) (τ : Store Bool),
    Transcript (fun i => bif i then .serial (.ofInt { bits := 8 } 200) else .date (.ofSeconds 10))
      as τ ∧
    as.filterMap Attempt.report? =
      [⟨.debug, 8, 44, some 300, 0, 8, .chainOverflow⟩,
        ⟨.debug, 32, 10, none, 1, 8, .widthMismatch⟩,
        ⟨.debug, 32, 20, some 20, 2147483648, 32, .addendTooLarge⟩] ∧
    ∃ a ∈ as, a.answer = .error .chainOverflow ∧
      (Rejection.mk .debug 8 44 (some 300) 0 8 .chainOverflow).verdict? = some .chainOverflow := by
  obtain ⟨as, τ, h, _, hrun, _, hreport, _⟩ := refusals_reported
    (fun i => bif i then .serial (.ofInt { bits := 8 } 200) else .date (.ofSeconds 10))
    [⟨true, .given (.ofInt { bits := 8 } 100)⟩, ⟨true, .given (.ofInt { bits := 8 } 0)⟩,
      ⟨false, .given (.ofInt { bits := 8 } 1)⟩, ⟨false, .stored false⟩,
      ⟨false, .given (.ofInt .standard 2147483648)⟩] []
  have hlog : as.filterMap Attempt.report? =
      [⟨.debug, 8, 44, some 300, 0, 8, .chainOverflow⟩,
        ⟨.debug, 32, 10, none, 1, 8, .widthMismatch⟩,
        ⟨.debug, 32, 20, some 20, 2147483648, 32, .addendTooLarge⟩] := (congrArg Prod.snd hrun).symm
  obtain ⟨a, ha, hr⟩ := List.mem_filterMap.1 (hlog ▸ List.mem_cons_self ..)
  obtain ⟨hanswer, hverdict, _⟩ := hreport a ha _ hr
  exact ⟨as, τ, h, hlog, a, ha, hanswer, hverdict⟩

end Store
end SerialNumber
