import SmartCard.Proofs.Apdu.RoundTrip

/-!
# Canonical wire forms

What is parsed and then encoded comes back as it was, unless it is extended for no reason
(`Wasteful`); then it comes back in short form. `parse_layouts` joins this to the grammar of
commands.
-/

namespace SmartCard.Command

namespace Layout.Of

variable {l l' : Layout} {wire wire' : Bytes} {c : Command}

/-- What has a layout has no empty data. -/
theorem normalized (h : l.Of wire c) : c.normalized = c := by
  have hdata := h.data
  cases l with
  | withData form data le hholds hle =>
    refine normalized_of_data hdata fun hnil => ?_
    have := hholds.1
    rw [hnil] at this
    cases this
  | headerOnly | expected =>
    have hbody : c.body = [] := congrArg (Option.getD · []) hdata
    have hfield : field c.body = c.data := by rw [hbody, hdata]; rfl
    exact congrArg (fun data => { c with data }) hfield

/-- The lengths of the command fit the form of the layout. -/
theorem holds (h : l.Of wire c) :
    c.body.length < 256 ^ l.form.width ∧ ∀ le ∈ c.le, l.form.HoldsExpected le := by
  unfold body
  rw [h.data, h.expected]
  exact l.holds

theorem encodable (h : l.Of wire c) : c.Encodable := by
  obtain ⟨hdata, hexpected⟩ := h.holds
  have hwidth : 256 ^ l.form.width ≤ 65536 := by cases l.form <;> decide
  refine ⟨?_, ?_⟩
  · show c.body.length ≤ 65535
    omega
  · intro le hle
    obtain ⟨h1, h2⟩ := hexpected le hle
    exact ⟨h1, Nat.le_trans h2 hwidth⟩

/-- Lengths that need extended form are not in a short layout. -/
theorem lengthForm_of_short (h : l.Of wire c) (hshort : l.form = .short) :
    c.lengthForm = .short := by
  obtain ⟨hdata, hexpected⟩ := h.holds
  rw [hshort] at hdata hexpected
  have hextended : c.isExtended = false :=
    isExtended_eq_false_iff.mpr ⟨Nat.le_of_lt_succ hdata, fun le hle => (hexpected le hle).2⟩
  unfold lengthForm
  rw [hextended]
  rfl

/-! ## Two layouts of one command -/

theorem wire_eq (h : l.Of wire c) (h' : l'.Of wire' c) (hform : l.form = l'.form) :
    wire = wire' := by
  rw [h.wire, h'.wire,
    eq_of_form (h.data.symm.trans h'.data) (h.expected.symm.trans h'.expected) hform]

theorem length_lt (h : l.Of wire c) (h' : l'.Of wire' c) (hshort : l.form = .short)
    (hextended : l'.form = .extended) : wire.length < wire'.length := by
  rw [h.wire, h'.wire, List.length_append, List.length_append]
  apply Nat.add_lt_add_left
  exact length_bytes_lt (h.data.symm.trans h'.data) (h.expected.symm.trans h'.expected) hshort
    hextended

end Layout.Of

/-- The wire form is extended although the lengths of the command fit short form. -/
structure Wasteful (wire : Bytes) (c : Command) : Prop where
  extended : ExtendedForm wire
  data : c.body.length ≤ maxShortData
  expected : ∀ le ∈ c.le, le ≤ maxShortExpected

theorem lengthForm_eq_short_iff {c : Command} :
    c.lengthForm = .short ↔
      c.body.length ≤ maxShortData ∧ ∀ le ∈ c.le, le ≤ maxShortExpected := by
  rw [← isExtended_eq_false_iff, ← Bool.not_eq_true, ← lengthForm_eq_extended_iff]
  cases c.lengthForm <;> simp

theorem Layout.Of.wasteful_iff {l : Layout} {wire : Bytes} {c : Command} (h : l.Of wire c) :
    Wasteful wire c ↔ l.form = .extended ∧ c.lengthForm = .short := by
  rw [← h.extendedForm_iff, lengthForm_eq_short_iff]
  constructor
  · rintro ⟨hextended, hdata, hexpected⟩
    exact ⟨hextended, hdata, hexpected⟩
  · rintro ⟨hextended, hdata, hexpected⟩
    exact ⟨hextended, hdata, hexpected⟩

/-- What is not wasteful has the form that its command needs. -/
theorem Layout.Of.form_eq {l : Layout} {wire : Bytes} {c : Command} (h : l.Of wire c)
    (hnot : ¬ Wasteful wire c) : l.form = c.lengthForm := by
  cases hform : l.form with
  | short => exact (h.lengthForm_of_short hform).symm
  | extended =>
    cases hneeded : c.lengthForm with
    | short => exact absurd (h.wasteful_iff.mpr ⟨hform, hneeded⟩) hnot
    | extended => rfl

/-- **Parsing and encoding again.** The command has a wire form, which parses to it. This is the
one that was parsed, unless that is wasteful; then it is shorter. -/
theorem exists_canonical {wire : Bytes} {c : Command} (h : parse wire = .ok c) :
    ∃ canonical, c.encode = .ok canonical ∧ parse canonical = .ok c ∧
      (canonical = wire ↔ ¬ Wasteful wire c) ∧
      (Wasteful wire c → canonical.length < wire.length ∧ ¬ ExtendedForm canonical) := by
  obtain ⟨l, hl⟩ := parse_eq_ok_iff.mp h
  obtain ⟨l', hl', hform⟩ := hl.encodable.exists_layout
  rw [hl.normalized] at hl'
  have hshorter (hwasteful : Wasteful wire c) :
      c.encodeFields.length < wire.length ∧ ¬ ExtendedForm c.encodeFields := by
    obtain ⟨hextended, hneeded⟩ := hl.wasteful_iff.mp hwasteful
    have hshort : l'.form = .short := hform.trans hneeded
    refine ⟨hl'.length_lt hl hshort hextended, ?_⟩
    rw [hl'.extendedForm_iff, hshort]
    decide
  refine ⟨c.encodeFields, hl.encodable.encode, hl'.parse, ⟨?_, ?_⟩, hshorter⟩
  · intro heq hwasteful
    have := (hshorter hwasteful).1
    rw [heq] at this
    exact Nat.lt_irrefl _ this
  · intro hnot
    exact hl'.wire_eq hl (hform.trans (hl.form_eq hnot).symm)

/-- **The seven layouts.** A byte string is parsed exactly if it is a header and a layout, which no
byte string is in two ways, and the command says what the layout says. Everything else is refused
for its length. Encoding what was parsed gives the byte string again, but for wasteful ones, which
come back shorter, in short form. -/
theorem parse_layouts (bytes : Bytes) :
    (∀ c, parse bytes = .ok c ↔ ∃ l : Layout, l.Of bytes c) ∧
      (∀ (l l' : Layout) (c c' : Command), l.Of bytes c → l'.Of bytes c' → l = l' ∧ c = c') ∧
      (∀ e, parse bytes = .error e ↔
        (∀ (l : Layout) (c : Command), ¬ l.Of bytes c) ∧ e = .commandLength bytes.length) ∧
      ∀ c, parse bytes = .ok c → ∃ wire, c.encode = .ok wire ∧ parse wire = .ok c ∧
        wire.length ≤ bytes.length ∧ (wire = bytes ↔ ¬ Wasteful bytes c) ∧
        (Wasteful bytes c → wire.length < bytes.length ∧ ¬ ExtendedForm wire) := by
  refine ⟨fun c => parse_eq_ok_iff, fun l l' c c' h h' => h.unique h', ?_, ?_⟩
  · intro e
    constructor
    · intro h
      refine ⟨fun l c hl => ?_, parse_error h⟩
      rw [hl.parse] at h
      cases h
    · rintro ⟨hnone, rfl⟩
      cases h : parse bytes with
      | error e => rw [parse_error h]
      | ok c =>
        obtain ⟨l, hl⟩ := parse_eq_ok_iff.mp h
        exact absurd hl (hnone l c)
  · intro c h
    obtain ⟨wire, hencode, hparse, hsame, hshorter⟩ := exists_canonical h
    refine ⟨wire, hencode, hparse, ?_, hsame, hshorter⟩
    by_cases hwasteful : Wasteful bytes c
    · exact Nat.le_of_lt (hshorter hwasteful).1
    · exact Nat.le_of_eq (congrArg List.length (hsame.mpr hwasteful))

/-- An expected length that is extended for no reason. -/
example : (parse [0x00, 0xB0, 0x00, 0x00, 0x00, 0x00, 0x04]).bind encode =
    .ok [0x00, 0xB0, 0x00, 0x00, 0x04] := by cbv

end SmartCard.Command
