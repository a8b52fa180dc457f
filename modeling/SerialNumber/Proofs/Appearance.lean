import SerialNumber.DateSerial.Json
import SerialNumber.DateSerial.Text
import SerialNumber.Json.Writer
import SerialNumber.Operand
import SerialNumber.Outcome
import SerialNumber.Proofs.HashSet
import SerialNumber.Serial.Json
import SerialNumber.Serial.Text

/-! What is seen of a chain. Serials that are the same look the same, compare in the same way and
are the same amount to add. What led to them shows only when something is added to them, and there
only if the chain of one of them has no room for it. -/
namespace SerialNumber

/-- What a serial shows by itself. -/
structure Serial.Appearance where
  hashInput : List HashWord
  text : String
  readBack : Except NumeralError Serial
  json : Json
  written : String
  date : DateSerial

def Serial.appearance (s : Serial) : Serial.Appearance where
  hashInput := s.hashInput
  text := s.text
  readBack := ofText s.text
  json := s.toJson
  written := s.toJson.compact
  date := .ofSerial s

/-- What a date shows by itself. -/
structure DateSerial.Appearance where
  hashInput : List HashWord
  text : String
  readBack : Except IllegalDate DateSerial
  json : Json
  written : String
  seconds : Nat
  zoned : ZonedTime

def DateSerial.appearance (d : DateSerial) : DateSerial.Appearance where
  hashInput := d.hashInput
  text := d.text
  readBack := ofText d.text
  json := d.toJson
  written := d.toJson.compact
  seconds := d.seconds
  zoned := d.zoned

/-- What comparing two things answers: how they are ordered, and which of the operators hold. -/
structure Relations (ω : Type) where
  order : ω
  lt : Bool
  le : Bool
  gt : Bool
  ge : Bool

def Operand.relations (a b : Operand) : Relations Comparison where
  order := a.compare? b
  lt := (a.compare? b).isLT
  le := (a.compare? b).isLE
  gt := (a.compare? b).isGT
  ge := (a.compare? b).isGE

def CanonicalOrder.relations {α : Type} [CanonicalOrder α] (a b : α) : Relations Ordering where
  order := canonical a b
  lt := lt a b
  le := le a b
  gt := gt a b
  ge := ge a b

/-- How the outcomes agree of adding one amount to two things that are the same. -/
structure Agree {α : Type} [Setoid α] (x y : Except AddError α) : Prop where
  sum : ∀ s t, x = .ok s → y = .ok t → s ≈ t
  refusal : ∀ e, e ≠ .chainOverflow → (x = .error e ↔ y = .error e)
  room : ∀ e s, x = .ok s ∧ y = .error e ∨ x = .error e ∧ y = .ok s → e = .chainOverflow

section Agree
variable {α β : Type} [Setoid α] [Setoid β] {x y : Except AddError α} {f : α → β}

/-- Where one is a sum and the other is refused, both would be refused for any other reason. -/
theorem agree_of (hsum : ∀ s t, x = .ok s → y = .ok t → s ≈ t)
    (hrefusal : ∀ e, e ≠ .chainOverflow → (x = .error e ↔ y = .error e)) : Agree x y := by
  refine ⟨hsum, hrefusal, ?_⟩
  intro e s h
  by_contra he
  rcases h with ⟨hx, hy⟩ | ⟨hx, hy⟩
  · rw [(hrefusal e he).2 hy] at hx
    contradiction
  · rw [(hrefusal e he).1 hx] at hy
    contradiction

theorem agree_of_map (hf : ∀ s t, f s ≈ f t → s ≈ t) (h : Agree (x.map f) (y.map f)) :
    Agree x y := by
  refine agree_of ?_ ?_
  · rintro s t rfl rfl
    exact hf s t (h.sum _ _ rfl rfl)
  · intro e he
    calc x = .error e ↔ x.map f = .error e := Outcome.map_eq_error_iff.symm
      _ ↔ y.map f = .error e := h.refusal e he
      _ ↔ y = .error e := Outcome.map_eq_error_iff

end Agree

namespace Serial
variable {a b n : Serial} {β : Type}

theorem rebased_eq_of_equiv (h : a ≈ b) : a.rebased = b.rebased := Serial.ext h.1 h.2 rfl

/-- What does not change when the chain is forgotten does not see it. -/
theorem eq_of_equiv {f : Serial → β} (hf : ∀ s, f s.rebased = f s) (h : a ≈ b) : f a = f b := by
  calc f a = f a.rebased := (hf a).symm
    _ = f b.rebased := by rw [rebased_eq_of_equiv h]
    _ = f b := hf b

theorem appearance_rebased (s : Serial) : s.rebased.appearance = s.appearance := rfl

theorem add_rebased_right (s n : Serial) : s.add n.rebased = s.add n := rfl

theorem agree_add (h : a ≈ b) (n : Serial) : Agree (a.add n) (b.add n) := by
  obtain ⟨hw, hv⟩ := equiv_iff.1 h
  refine agree_of ?_ ?_
  · intro s t hs ht
    obtain ⟨_, rfl⟩ := add_eq_ok_iff.1 hs
    obtain ⟨_, rfl⟩ := add_eq_ok_iff.1 ht
    refine equiv_iff.2 ⟨hw, ?_⟩
    rw [advance_value, advance_value, hw, hv]
  · intro e he
    rw [add_eq_error_iff, add_eq_error_iff]
    cases e with
    | chainOverflow => contradiction
    | widthMismatch => rw [refusal?_eq_widthMismatch_iff, refusal?_eq_widthMismatch_iff, hw]
    | addendTooLarge => rw [refusal?_eq_addendTooLarge_iff, refusal?_eq_addendTooLarge_iff, hw]

end Serial

namespace DateSerial
variable {d e : DateSerial}

def rebased (d : DateSerial) : DateSerial := ⟨d.serial.rebased, d.width_eq⟩

theorem rebased_eq_of_equiv (h : d ≈ e) : d.rebased = e.rebased :=
  DateSerial.ext (Serial.rebased_eq_of_equiv h)

theorem appearance_rebased (d : DateSerial) : d.rebased.appearance = d.appearance := rfl

theorem appearance_eq_of_equiv (h : d ≈ e) : d.appearance = e.appearance := by
  rw [← appearance_rebased d, rebased_eq_of_equiv h, appearance_rebased]

theorem hashInput_eq_iff : d.hashInput = e.hashInput ↔ d ≈ e := Serial.hashInput_eq_iff

theorem add_rebased_right (d : DateSerial) (n : Serial) : d.add n.rebased = d.add n := rfl

theorem agree_add (h : d ≈ e) (n : Serial) : Agree (d.add n) (e.add n) := by
  have hserial := Serial.agree_add h n
  rw [← add_serial, ← add_serial] at hserial
  have hreflects : ∀ s t : DateSerial, s.serial ≈ t.serial → s ≈ t := fun _ _ hst => hst
  exact agree_of_map hreflects hserial

end DateSerial

namespace Operand
variable {a a' b b' : Operand}

theorem same_congr (ha : a.Same a') (hb : b.Same b') : a.Same b ↔ a'.Same b' := by
  rw [same_iff] at ha hb
  rw [same_iff, same_iff]
  constructor
  · intro h
    exact Setoid.trans (Setoid.symm ha) (Setoid.trans h hb)
  · intro h
    exact Setoid.trans ha (Setoid.trans h (Setoid.symm hb))

theorem compare?_eq_of_same (ha : a.Same a') (hb : b.Same b') :
    a.compare? b = a'.compare? b' := by
  have hleft : ∀ t, a.underlying.compare? t = a'.underlying.compare? t := fun t =>
    Serial.eq_of_equiv (f := fun s => s.compare? t) (fun _ => rfl) (same_iff.1 ha)
  have hright : ∀ s : Serial, s.compare? b.underlying = s.compare? b'.underlying := fun s =>
    Serial.eq_of_equiv (f := s.compare?) (fun _ => rfl) (same_iff.1 hb)
  rw [compare?_eq, compare?_eq, hleft, hright]

theorem relations_eq_of_same (ha : a.Same a') (hb : b.Same b') :
    a.relations b = a'.relations b' := by
  simp only [relations, compare?_eq_of_same ha hb]

end Operand

namespace CanonicalOrder
variable {a a' b b' : Serial} {d d' e e' : DateSerial}

theorem relations_eq_of_equiv (ha : a ≈ a') (hb : b ≈ b') : relations a b = relations a' b' := by
  have hleft : relations a b = relations a' b :=
    Serial.eq_of_equiv (f := fun s => relations s b) (fun _ => rfl) ha
  have hright : relations a' b = relations a' b' :=
    Serial.eq_of_equiv (f := relations a') (fun _ => rfl) hb
  exact hleft.trans hright

theorem relations_eq_of_equiv_dates (hd : d ≈ d') (he : e ≈ e') :
    relations d e = relations d' e' :=
  relations_eq_of_equiv hd he

end CanonicalOrder

/-- Sets go by what is fed to a hash, and so does sameness. -/
theorem Serial.keptByHash_eq_distinct (hash : List HashWord → Nat) (items : List Serial) :
    keptByHash (fun s => hash s.hashInput) (fun a b : Serial => decide (a ≈ b)) items =
      Serial.distinct items :=
  keptByHash_eq
    (fun _ _ h => congrArg hash (Serial.hashInput_eq_iff.2 (of_decide_eq_true h))) items

theorem DateSerial.keptByHash_eq_distinct (hash : List HashWord → Nat)
    (items : List DateSerial) :
    keptByHash (fun d => hash d.hashInput) (fun d e : DateSerial => decide (d ≈ e)) items =
      DateSerial.distinct items :=
  keptByHash_eq
    (fun _ _ h => congrArg hash (DateSerial.hashInput_eq_iff.2 (of_decide_eq_true h))) items

/-- What led to a serial is not seen, neither on it nor in comparing it, nor when it is what is
added. When something is added to it, it is seen only in a sum that one chain has no room for. So a
set, whatever its hash, keeps the first of the items that are the same. -/
theorem chain_unseen :
    (∀ a a' : Serial, a ≈ a' → a.appearance = a'.appearance) ∧
    (∀ d d' : DateSerial, d ≈ d' → d.appearance = d'.appearance) ∧
    (∀ o o' p p' : Operand, o.Same o' → p.Same p' →
      (o.Same p ↔ o'.Same p') ∧ o.relations p = o'.relations p') ∧
    (∀ a a' b b' : Serial, a ≈ a' → b ≈ b' →
      CanonicalOrder.relations a b = CanonicalOrder.relations a' b') ∧
    (∀ d d' e e' : DateSerial, d ≈ d' → e ≈ e' →
      CanonicalOrder.relations d e = CanonicalOrder.relations d' e') ∧
    (∀ n n' : Serial, n ≈ n' →
      (∀ a : Serial, a.add n = a.add n') ∧ ∀ d : DateSerial, d.add n = d.add n') ∧
    (∀ a a' n : Serial, a ≈ a' → Agree (a.add n) (a'.add n)) ∧
    (∀ (d d' : DateSerial) (n : Serial), d ≈ d' → Agree (d.add n) (d'.add n)) ∧
    (∀ a b : Serial, a.hashInput = b.hashInput ↔ a ≈ b) ∧
    (∀ d e : DateSerial, d.hashInput = e.hashInput ↔ d ≈ e) ∧
    (∀ (hash : List HashWord → Nat) (items : List Serial), KeepsFirsts items
      (keptByHash (fun s => hash s.hashInput) (fun a b : Serial => decide (a ≈ b)) items)) ∧
    (∀ (hash : List HashWord → Nat) (items : List DateSerial), KeepsFirsts items
      (keptByHash (fun d => hash d.hashInput) (fun d e : DateSerial => decide (d ≈ e)) items)) := by
  refine ⟨?_, ?_, ?_, ?_, ?_, ?_, ?_, ?_, ?_, ?_, ?_, ?_⟩
  · intro a a' h
    exact Serial.eq_of_equiv Serial.appearance_rebased h
  · intro d d' h
    exact DateSerial.appearance_eq_of_equiv h
  · intro o o' p p' ho hp
    exact ⟨Operand.same_congr ho hp, Operand.relations_eq_of_same ho hp⟩
  · intro a a' b b' ha hb
    exact CanonicalOrder.relations_eq_of_equiv ha hb
  · intro d d' e e' hd he
    exact CanonicalOrder.relations_eq_of_equiv_dates hd he
  · intro n n' h
    constructor
    · intro a
      exact Serial.eq_of_equiv (Serial.add_rebased_right a) h
    · intro d
      exact Serial.eq_of_equiv (DateSerial.add_rebased_right d) h
  · intro a a' n h
    exact Serial.agree_add h n
  · intro d d' n h
    exact DateSerial.agree_add h n
  · intro a b
    exact Serial.hashInput_eq_iff
  · intro d e
    exact DateSerial.hashInput_eq_iff
  · intro hash items
    rw [Serial.keptByHash_eq_distinct]
    exact keepsFirsts_firstOccurrences items
  · intro hash items
    rw [DateSerial.keptByHash_eq_distinct]
    exact keepsFirsts_firstOccurrences items

/-- In a space of 8 bits, `200 + 100` looks like 44, but has no room for one more. -/
theorem chain_unseen_but_for_room : ∃ a : Serial,
    (Serial.ofInt { bits := 8 } 200).add (.ofInt { bits := 8 } 100) = .ok a ∧
      a ≈ .ofInt { bits := 8 } 44 ∧
      a.appearance = (Serial.ofInt { bits := 8 } 44).appearance ∧
      a.add (.ofInt { bits := 8 } 1) = .error .chainOverflow ∧
      ∃ t, (Serial.ofInt { bits := 8 } 44).add (.ofInt { bits := 8 } 1) = .ok t := by
  have hadd : (Serial.ofInt { bits := 8 } 200).add (.ofInt { bits := 8 } 100) = .ok _ := rfl
  have hsame : (Serial.ofInt { bits := 8 } 200).advance 100 ≈ .ofInt { bits := 8 } 44 := by decide
  exact ⟨_, hadd, hsame, chain_unseen.1 _ _ hsame, rfl, _, rfl⟩

end SerialNumber
