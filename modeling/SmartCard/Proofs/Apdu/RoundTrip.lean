import SmartCard.Proofs.Apdu.Layout

/-!
# Commands on the wire

`encode_eq_ok_iff` says which commands have a wire form. `parse_encode` reads every wire form back
to the command it was made from, with empty data left out.
-/

namespace SmartCard.Command

/-- The lengths of a command fit the fields of the wire form. -/
structure Encodable (c : Command) : Prop where
  data : c.body.length ≤ maxExtendedData
  expected : ∀ le ∈ c.le, 1 ≤ le ∧ le ≤ maxExtendedExpected

instance (c : Command) : Decidable c.Encodable :=
  decidable_of_iff (c.body.length ≤ maxExtendedData ∧ ∀ le ∈ c.le, 1 ≤ le ∧ le ≤ maxExtendedExpected)
    ⟨fun h => ⟨h.1, h.2⟩, fun h => ⟨h.data, h.expected⟩⟩

theorem encode_eq_ok_iff {c : Command} {wire : Bytes} :
    c.encode = .ok wire ↔ c.Encodable ∧ c.encodeFields = wire := by
  unfold encode
  by_cases hlen : maxExtendedData < c.body.length
  · rw [if_pos hlen]
    constructor
    · intro h
      cases h
    · rintro ⟨h, -⟩
      exact absurd h.data (by omega)
  · rw [if_neg hlen]
    cases hle : c.le with
    | none =>
      have h : c.Encodable := ⟨by omega, by simp [hle]⟩
      simp [h]
    | some le =>
      by_cases hrange : 1 ≤ le ∧ le ≤ maxExtendedExpected
      · have h : c.Encodable := ⟨by omega, by simpa [hle] using hrange⟩
        simp [hrange, h]
      · have h : ¬ c.Encodable := fun h => hrange (h.expected le hle)
        simp [hrange, h]

theorem Encodable.encode {c : Command} (h : c.Encodable) : c.encode = .ok c.encodeFields :=
  encode_eq_ok_iff.mpr ⟨h, rfl⟩

/-! ## Data -/

@[simp] theorem field_nil : field [] = none := rfl

theorem field_of_ne {body : Bytes} (h : body ≠ []) : field body = some body := by
  simp [field, h]

@[simp] theorem body_normalized (c : Command) : c.normalized.body = c.body := by
  by_cases h : c.body = []
  · rw [h]
    show (field c.body).getD [] = []
    rw [h]
    rfl
  · show (field c.body).getD [] = c.body
    rw [field_of_ne h]
    rfl

@[simp] theorem normalized_le (c : Command) : c.normalized.le = c.le := rfl

@[simp] theorem normalized_normalized (c : Command) : c.normalized.normalized = c.normalized := by
  show { c.normalized with data := field c.normalized.body } = c.normalized
  rw [body_normalized]
  rfl

theorem normalized_of_data {c : Command} {body : Bytes} (hdata : c.data = some body)
    (hne : body ≠ []) : c.normalized = c := by
  obtain ⟨cla, ins, p1, p2, data, le⟩ := c
  subst hdata
  simp [normalized, Command.body, field_of_ne hne]

/-! ## The layout of the wire form -/

theorem isExtended_eq_false_iff {c : Command} :
    c.isExtended = false ↔
      c.body.length ≤ maxShortData ∧ ∀ le ∈ c.le, le ≤ maxShortExpected := by
  unfold isExtended
  cases c.le <;> simp

/-- The form in which the lengths of a command are written. -/
def lengthForm (c : Command) : LengthForm := if c.isExtended then .extended else .short

theorem lengthForm_eq_extended_iff {c : Command} :
    c.lengthForm = .extended ↔ c.isExtended = true := by
  unfold lengthForm
  cases c.isExtended <;> simp

theorem isExtended_eq_lengthForm (c : Command) :
    c.isExtended = decide (c.lengthForm = .extended) := by
  rw [Bool.eq_iff_iff, decide_eq_true_iff, lengthForm_eq_extended_iff]

theorem dataField_of_ne {form : LengthForm} {body : Bytes} (hne : body ≠ []) :
    dataField (form = .extended) body = form.mark ++ bigEndian form.width body.length ++ body := by
  have hempty : body.isEmpty = false := by simpa using hne
  cases form <;> simp [dataField, hempty, LengthForm.mark, LengthForm.width]

theorem expectedField_of_data {form : LengthForm} (le : Option Nat) :
    (le.map (expectedField (form = .extended) true)).getD [] = form.expectedBytes le := by
  cases form <;> rfl

theorem expectedField_of_no_data {form : LengthForm} (le : Nat) :
    expectedField (form = .extended) false le = form.mark ++ bigEndian form.width le := by
  cases form <;> rfl

namespace Encodable

variable {c : Command} (h : c.Encodable)

include h

theorem holdsData (hne : c.body ≠ []) : c.lengthForm.HoldsData c.body := by
  have hpos : 0 < c.body.length := List.length_pos_iff.mpr hne
  refine ⟨hpos, ?_⟩
  unfold lengthForm
  cases hext : c.isExtended with
  | true => exact Nat.lt_succ_of_le h.data
  | false => exact Nat.lt_succ_of_le (isExtended_eq_false_iff.mp hext).1

theorem holdsExpected {le : Nat} (hle : le ∈ c.le) : c.lengthForm.HoldsExpected le := by
  obtain ⟨h1, h2⟩ := h.expected le hle
  refine ⟨h1, ?_⟩
  unfold lengthForm
  cases hext : c.isExtended with
  | true => exact h2
  | false => exact (isExtended_eq_false_iff.mp hext).2 le hle

/-- The wire form has a layout, in the form that the command needs. -/
theorem exists_layout : ∃ l : Layout, l.Of c.encodeFields c.normalized ∧ l.form = c.lengthForm := by
  have hdata : c.normalized.data = field c.body := rfl
  by_cases hne : c.body = []
  · rw [hne, field_nil] at hdata
    cases hle : c.le with
    | none =>
      refine ⟨.headerOnly, ⟨?_, hdata, hle⟩, ?_⟩
      · simp [encodeFields, dataField, hne, hle, Layout.bytes]
        rfl
      · simp [Layout.form, lengthForm, isExtended, hne, hle]
    | some le =>
      refine ⟨.expected c.lengthForm le (h.holdsExpected hle), ⟨?_, hdata, hle⟩, rfl⟩
      simp [encodeFields, dataField, hne, hle, Layout.bytes, isExtended_eq_lengthForm,
        expectedField_of_no_data]
      rfl
  · rw [field_of_ne hne] at hdata
    have hempty : c.body.isEmpty = false := by simpa using hne
    refine ⟨.withData c.lengthForm c.body c.le (h.holdsData hne) fun _ => h.holdsExpected,
      ⟨?_, hdata, rfl⟩, rfl⟩
    rw [encodeFields, isExtended_eq_lengthForm, dataField_of_ne hne, hempty, Bool.not_false,
      expectedField_of_data, Layout.bytes]
    simp only [List.append_assoc]
    rfl

end Encodable

/-- **Round trip.** The wire form of a command parses to the command without empty data. -/
theorem parse_encodeFields {c : Command} (h : c.Encodable) :
    parse c.encodeFields = .ok c.normalized := by
  obtain ⟨l, hl, -⟩ := h.exists_layout
  exact hl.parse

theorem parse_encode {c : Command} {wire : Bytes} (h : c.encode = .ok wire) :
    parse wire = .ok c.normalized := by
  obtain ⟨hc, rfl⟩ := encode_eq_ok_iff.mp h
  exact parse_encodeFields hc

/-! ## Lengths and faults -/

theorem length_encodeFields (c : Command) : c.encodeFields.length = c.encodedLength := by
  have hdata : (dataField c.isExtended c.body).length =
      if c.body.isEmpty then 0 else c.body.length + if c.isExtended then 3 else 1 := by
    unfold dataField
    split
    · rfl
    · split <;> simp <;> omega
  have hexpected (le : Nat) : (expectedField c.isExtended (!c.body.isEmpty) le).length =
      if !c.isExtended then 1 else if c.body.isEmpty then 3 else 2 := by
    unfold expectedField
    cases c.isExtended <;> cases c.body.isEmpty <;> simp
  unfold encodeFields encodedLength
  rw [List.length_append, List.length_append, hdata]
  cases c.le with
  | none => rfl
  | some le =>
    rw [Option.map_some, Option.getD_some, hexpected]
    rfl

/-- Why a command has no wire form. Data that is too long goes before a bad expected length. -/
inductive EncodeFault (c : Command) : ApduError → Prop
  | data (h : maxExtendedData < c.body.length) : EncodeFault c (.dataLength c.body.length)
  | expected {le : Nat} (h : c.body.length ≤ maxExtendedData) (hle : c.le = some le)
      (hrange : ¬ (1 ≤ le ∧ le ≤ maxExtendedExpected)) : EncodeFault c (.expectedLength le)

theorem encode_eq_error_iff {c : Command} {e : ApduError} :
    c.encode = .error e ↔ c.EncodeFault e := by
  unfold encode
  constructor
  · intro h
    split at h
    next hlen =>
      cases h
      exact .data hlen
    next hlen =>
      split at h
      next => cases h
      next le hle =>
        split at h
        next => cases h
        next hrange =>
          cases h
          exact .expected (Nat.le_of_not_lt hlen) hle hrange
  · rintro (hlen | ⟨hlen, hle, hrange⟩)
    · exact if_pos hlen
    · rw [if_neg (Nat.not_lt.mpr hlen), hle]
      exact if_neg hrange

/-- Empty data is encoded as no data. -/
theorem encode_normalized (c : Command) : c.normalized.encode = c.encode := by
  have hextended : c.normalized.isExtended = c.isExtended := by
    unfold isExtended
    rw [body_normalized, normalized_le]
  unfold encode encodeFields
  rw [body_normalized, normalized_le, hextended]
  rfl

/-- **Parsing undoes encoding.** A command has a wire form exactly if its lengths fit, and else the
fault is told. The wire form has the length foretold, is extended exactly if the command needs it,
and parses to the command without empty data; so commands that differ otherwise are encoded
differently. -/
theorem parse_undoes_encode (c : Command) :
    ((∃ wire, c.encode = .ok wire) ↔ c.Encodable) ∧
      (∀ e, c.encode = .error e ↔ c.EncodeFault e) ∧
      (∀ wire, c.encode = .ok wire →
        wire.length = c.encodedLength ∧ parse wire = .ok c.normalized ∧
          (ExtendedForm wire ↔ c.isExtended = true)) ∧
      ∀ c' : Command, c.Encodable → c'.Encodable → c.normalized ≠ c'.normalized →
        c.encode ≠ c'.encode := by
  refine ⟨⟨?_, fun h => ⟨_, h.encode⟩⟩, fun e => encode_eq_error_iff, ?_, ?_⟩
  · rintro ⟨wire, h⟩
    exact (encode_eq_ok_iff.mp h).1
  · intro wire h
    obtain ⟨hc, rfl⟩ := encode_eq_ok_iff.mp h
    obtain ⟨l, hl, hform⟩ := hc.exists_layout
    refine ⟨length_encodeFields c, hl.parse, ?_⟩
    rw [hl.extendedForm_iff, hform, lengthForm_eq_extended_iff]
  · intro c' h h' hne heq
    have hparse := parse_encode (heq.symm.trans h.encode)
    rw [parse_encodeFields h] at hparse
    exact hne (Except.ok.inj hparse)

end SmartCard.Command
