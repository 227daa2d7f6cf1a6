import SmartCard.Apdu.Parsing
import SmartCard.Proofs.Bytes

/-!
# The layouts of a command

Behind its header a command has one of seven layouts: nothing at all, or data and an expected
length, either of them or both, with all lengths in short or in extended form. The parser accepts
the layouts and nothing else (`parse_eq_ok_iff`), and no byte string has two of them (`Of.unique`).
-/

namespace SmartCard.Command

/-! ## Lengths -/

/-- How the lengths of a command are written. -/
inductive LengthForm
  | short
  | extended
  deriving DecidableEq, Repr

namespace LengthForm

/-- The number of bytes that a length takes. -/
def width : LengthForm → Nat
  | short => 1
  | extended => 2

/-- What stands before the first length. -/
def mark : LengthForm → Bytes
  | short => []
  | extended => [0]

/-- There is data, and the form can count it. -/
def HoldsData (form : LengthForm) (data : Bytes) : Prop :=
  1 ≤ data.length ∧ data.length < 256 ^ form.width

/-- The form can hold the expected length, the largest as zeros. -/
def HoldsExpected (form : LengthForm) (le : Nat) : Prop := 1 ≤ le ∧ le ≤ 256 ^ form.width

/-- Read an expected length. -/
def expected? : LengthForm → Bytes → Option Nat
  | short => shortExpected?
  | extended => extendedExpected?

/-- An expected length, absent if there is none. -/
def expectedBytes (form : LengthForm) (le : Option Nat) : Bytes :=
  (le.map (bigEndian form.width)).getD []

end LengthForm

theorem shortExpected_ofNat {le : Nat} (h : 1 ≤ le) (h' : le ≤ maxShortExpected) :
    shortExpected (UInt8.ofNat le) = le := by
  unfold shortExpected
  unfold maxShortExpected at *
  by_cases hwrap : le = 256
  · subst hwrap
    exact if_pos (by decide)
  · have hne : UInt8.ofNat le ≠ 0 := by
      intro h0
      have := congrArg UInt8.toNat h0
      simp at this
      omega
    rw [if_neg hne, UInt8.toNat_ofNat']
    omega

theorem extendedExpected_bigEndian {le : Nat} (h : 1 ≤ le) (h' : le ≤ maxExtendedExpected) :
    extendedExpected (UInt8.ofNat (le / 256)) (UInt8.ofNat le) = le := by
  unfold extendedExpected
  unfold maxExtendedExpected at *
  by_cases hwrap : le = 65536
  · subst hwrap
    exact if_pos (by decide)
  · have hread : ofBigEndian [UInt8.ofNat (le / 256), UInt8.ofNat le] = le :=
      @ofBigEndian_bigEndian 2 _ (by omega)
    simp only [hread]
    rw [if_neg (by omega)]

/-- Every byte is a short expected length. -/
theorem holdsExpected_short (b : UInt8) :
    LengthForm.short.HoldsExpected (shortExpected b) ∧ bigEndian 1 (shortExpected b) = [b] := by
  have hlt := b.toNat_lt
  unfold shortExpected
  split
  next h =>
    subst h
    exact ⟨⟨by decide, by decide⟩, rfl⟩
  next h =>
    have hne : b.toNat ≠ 0 := fun h0 => h (UInt8.toNat_inj.mp h0)
    refine ⟨⟨by omega, ?_⟩, ?_⟩
    · show b.toNat ≤ 256
      omega
    · rw [bigEndian_one, UInt8.ofNat_toNat]

/-- Every two bytes are an extended expected length. -/
theorem holdsExpected_extended (hi lo : UInt8) :
    LengthForm.extended.HoldsExpected (extendedExpected hi lo) ∧
      bigEndian 2 (extendedExpected hi lo) = [hi, lo] := by
  have hread : bigEndian 2 (ofBigEndian [hi, lo]) = [hi, lo] := bigEndian_ofBigEndian [hi, lo]
  have hlt : ofBigEndian [hi, lo] < 65536 := by simpa using ofBigEndian_lt [hi, lo]
  by_cases h : ofBigEndian [hi, lo] = 0
  · have hle : extendedExpected hi lo = maxExtendedExpected := if_pos h
    rw [h] at hread
    rw [hle]
    exact ⟨⟨by decide, Nat.le_refl 65536⟩, hread⟩
  · have hle : extendedExpected hi lo = ofBigEndian [hi, lo] := if_neg h
    rw [hle]
    refine ⟨⟨by omega, ?_⟩, hread⟩
    show ofBigEndian [hi, lo] ≤ 65536
    omega

namespace LengthForm

variable {form : LengthForm} {le : Nat} {data bytes : Bytes}

theorem expected?_eq_some_iff :
    form.expected? bytes = some le ↔ form.HoldsExpected le ∧ bytes = bigEndian form.width le := by
  constructor
  · intro h
    cases form with
    | short =>
      match bytes, h with
      | [b], h =>
        obtain rfl : shortExpected b = le := Option.some.inj h
        obtain ⟨hholds, hbytes⟩ := holdsExpected_short b
        exact ⟨hholds, hbytes.symm⟩
    | extended =>
      match bytes, h with
      | [hi, lo], h =>
        obtain rfl : extendedExpected hi lo = le := Option.some.inj h
        obtain ⟨hholds, hbytes⟩ := holdsExpected_extended hi lo
        exact ⟨hholds, hbytes.symm⟩
  · rintro ⟨⟨h1, h2⟩, rfl⟩
    cases form with
    | short => exact congrArg some (shortExpected_ofNat h1 h2)
    | extended => exact congrArg some (extendedExpected_bigEndian h1 h2)

theorem length_expectedBytes (form : LengthForm) (le : Option Nat) :
    (form.expectedBytes le).length = if le.isSome then form.width else 0 := by
  cases le with
  | none => rfl
  | some le => exact length_bigEndian form.width le

/-- What follows the length of the data: the data, then an expected length or nothing. -/
theorem parseTail_eq_some_iff {lc : Nat} {tail : Bytes} {data? : Option Bytes} {le? : Option Nat} :
    parseTail form.expected? lc tail = some (data?, le?) ↔
      lc ≠ 0 ∧ ∃ data, data? = some data ∧ data.length = lc ∧
        tail = data ++ form.expectedBytes le? ∧ ∀ le ∈ le?, form.HoldsExpected le := by
  unfold parseTail
  constructor
  · intro h
    split at h
    next => cases h
    next hlc =>
      split at h
      next hlen =>
        cases h
        exact ⟨hlc, tail, rfl, hlen, (List.append_nil tail).symm, by simp⟩
      next hlen =>
        obtain ⟨le, hle, heq⟩ := Option.map_eq_some_iff.mp h
        cases heq
        obtain ⟨hholds, hdrop⟩ := expected?_eq_some_iff.mp hle
        have hlong : lc ≤ tail.length := by
          have := congrArg List.length hdrop
          rw [List.length_drop, length_bigEndian] at this
          have hpos : 0 < form.width := by cases form <;> decide
          omega
        refine ⟨hlc, tail.take lc, rfl, List.length_take_of_le hlong, ?_, ?_⟩
        · show tail = tail.take lc ++ bigEndian form.width le
          rw [← hdrop, List.take_append_drop]
        · intro le' hle'
          cases hle'
          exact hholds
  · rintro ⟨hlc, data, rfl, rfl, rfl, hholds⟩
    rw [if_neg hlc]
    cases le? with
    | none => simp [expectedBytes]
    | some le =>
      have hread : form.expected? (bigEndian form.width le) = some le :=
        expected?_eq_some_iff.mpr ⟨hholds le rfl, rfl⟩
      have hpos : form.width ≠ 0 := by cases form <;> decide
      simp [expectedBytes, hread, hpos]

/-- A length and what it counts. -/
theorem parseFields_counted {n : Nat} {tail : Bytes} (h1 : 1 ≤ n) (h2 : n < 256 ^ form.width)
    (hne : tail ≠ []) :
    parseFields (form.mark ++ bigEndian form.width n ++ tail) =
      parseTail form.expected? n tail := by
  obtain ⟨b, rest, rfl⟩ := List.exists_cons_of_ne_nil hne
  cases form with
  | short =>
    have h256 : n < 256 := h2
    have hn : (UInt8.ofNat n).toNat = n := by
      rw [UInt8.toNat_ofNat']
      omega
    have h0 : UInt8.ofNat n ≠ 0 := by
      intro h0
      rw [h0] at hn
      have : (0 : UInt8).toNat = 0 := rfl
      omega
    show parseFields (UInt8.ofNat n :: b :: rest) = parseTail shortExpected? n (b :: rest)
    rw [← hn]
    simp [parseFields, h0, hn]
  | extended =>
    have hn : ofBigEndian (bigEndian 2 n) = n := ofBigEndian_bigEndian h2
    show parseTail extendedExpected? (ofBigEndian (bigEndian 2 n)) (b :: rest) =
      parseTail extendedExpected? n (b :: rest)
    rw [hn]

end LengthForm

/-! ## Layouts -/

/-- What follows the header. -/
inductive Layout
  | headerOnly
  | expected (form : LengthForm) (le : Nat) (h : form.HoldsExpected le)
  | withData (form : LengthForm) (data : Bytes) (le : Option Nat) (h : form.HoldsData data)
      (h' : ∀ n ∈ le, form.HoldsExpected n)

namespace Layout

def bytes : Layout → Bytes
  | headerOnly => []
  | expected form le _ => form.mark ++ bigEndian form.width le
  | withData form data le _ _ =>
    form.mark ++ bigEndian form.width data.length ++ (data ++ form.expectedBytes le)

def data? : Layout → Option Bytes
  | headerOnly => none
  | expected _ _ _ => none
  | withData _ data _ _ _ => some data

def expected? : Layout → Option Nat
  | headerOnly => none
  | expected _ le _ => some le
  | withData _ _ le _ _ => le

/-- The form of the lengths, short if there are none. -/
def form : Layout → LengthForm
  | headerOnly => .short
  | expected form _ _ => form
  | withData form _ _ _ _ => form

/-- The command `c` in the layout `l`. -/
structure Of (l : Layout) (wire : Bytes) (c : Command) : Prop where
  wire : wire = c.header ++ l.bytes
  data : c.data = l.data?
  expected : c.le = l.expected?

/-- Every layout is read. -/
theorem parseFields_bytes (l : Layout) : parseFields l.bytes = some (l.data?, l.expected?) := by
  cases l with
  | headerOnly => rfl
  | expected form le h =>
    have hread : form.expected? (bigEndian form.width le) = some le :=
      LengthForm.expected?_eq_some_iff.mpr ⟨h, rfl⟩
    cases form with
    | short => exact congrArg (Option.map fun le => (none, some le)) hread
    | extended => exact congrArg (Option.map fun le => (none, some le)) hread
  | withData form data le h h' =>
    have hne : data ++ form.expectedBytes le ≠ [] := by
      intro hnil
      have := h.1
      rw [(List.append_eq_nil_iff.mp hnil).1] at this
      cases this
    have hpos : data.length ≠ 0 := by
      have := h.1
      omega
    show parseFields (form.mark ++ bigEndian form.width data.length ++ _) = _
    rw [LengthForm.parseFields_counted h.1 h.2 hne]
    exact LengthForm.parseTail_eq_some_iff.mpr ⟨hpos, data, rfl, rfl, rfl, h'⟩

/-- What is counted by a length that fits the form has a layout. -/
theorem exists_of_parseTail (form : LengthForm) {n : Nat} {tail : Bytes} {data? : Option Bytes}
    {le? : Option Nat} (hlt : n < 256 ^ form.width)
    (h : parseTail form.expected? n tail = some (data?, le?)) :
    ∃ l : Layout, l.bytes = form.mark ++ bigEndian form.width n ++ tail ∧ l.data? = data? ∧
      l.expected? = le? := by
  obtain ⟨hpos, data, rfl, rfl, rfl, hholds⟩ := LengthForm.parseTail_eq_some_iff.mp h
  exact ⟨.withData form data le? ⟨Nat.pos_of_ne_zero hpos, hlt⟩ hholds, rfl, rfl, rfl⟩

/-- Nothing but layouts is read. -/
theorem exists_of_parseFields {fields : Bytes} {data? : Option Bytes} {le? : Option Nat}
    (h : parseFields fields = some (data?, le?)) :
    ∃ l : Layout, l.bytes = fields ∧ l.data? = data? ∧ l.expected? = le? := by
  unfold parseFields at h
  split at h
  next =>
    cases h
    exact ⟨.headerOnly, rfl, rfl, rfl⟩
  next b =>
    cases h
    obtain ⟨hholds, hbytes⟩ := holdsExpected_short b
    exact ⟨.expected .short _ hholds, hbytes, rfl, rfl⟩
  next hi lo =>
    cases h
    obtain ⟨hholds, hbytes⟩ := holdsExpected_extended hi lo
    exact ⟨.expected .extended _ hholds, congrArg (0 :: ·) hbytes, rfl, rfl⟩
  next hi lo tail _ =>
    have hlt : ofBigEndian [hi, lo] < 65536 := by simpa using ofBigEndian_lt [hi, lo]
    have hread : bigEndian 2 (ofBigEndian [hi, lo]) = [hi, lo] := bigEndian_ofBigEndian [hi, lo]
    obtain ⟨l, hbytes, hl⟩ := exists_of_parseTail .extended hlt h
    refine ⟨l, ?_, hl⟩
    rw [hbytes, LengthForm.width, hread]
    rfl
  next lc tail _ _ _ =>
    have hread : bigEndian 1 lc.toNat = [lc] := by rw [bigEndian_one, UInt8.ofNat_toNat]
    obtain ⟨l, hbytes, hl⟩ := exists_of_parseTail .short lc.toNat_lt h
    refine ⟨l, ?_, hl⟩
    rw [hbytes, LengthForm.width, hread]
    rfl

/-- The lengths of a layout fit its form. -/
theorem holds (l : Layout) :
    (l.data?.getD []).length < 256 ^ l.form.width ∧
      ∀ le ∈ l.expected?, l.form.HoldsExpected le := by
  cases l with
  | headerOnly => exact ⟨by decide, by simp [expected?]⟩
  | expected form le h =>
    refine ⟨Nat.pow_pos (by decide), ?_⟩
    intro le' hle'
    cases hle'
    exact h
  | withData form data le h hle => exact ⟨h.2, hle⟩

/-! ## One layout at most -/

/-- Two layouts of the same data and expected length. -/
inductive SameFields : Layout → Layout → Prop
  | headerOnly : SameFields headerOnly headerOnly
  | expected {form form' : LengthForm} {le : Nat} (h : form.HoldsExpected le)
      (h' : form'.HoldsExpected le) : SameFields (expected form le h) (expected form' le h')
  | withData {form form' : LengthForm} {data : Bytes} {le : Option Nat} (h : form.HoldsData data)
      (hle : ∀ n ∈ le, form.HoldsExpected n) (h' : form'.HoldsData data)
      (hle' : ∀ n ∈ le, form'.HoldsExpected n) :
      SameFields (withData form data le h hle) (withData form' data le h' hle')

/-- The form of the lengths is all that a command leaves open. -/
theorem sameFields {l l' : Layout} (hdata : l.data? = l'.data?)
    (hexpected : l.expected? = l'.expected?) : SameFields l l' := by
  cases l with
  | headerOnly =>
    cases l' with
    | headerOnly => exact .headerOnly
    | expected => cases hexpected
    | withData => cases hdata
  | expected form le h =>
    cases l' with
    | headerOnly => cases hexpected
    | expected form' le' h' =>
      cases hexpected
      exact .expected h h'
    | withData => cases hdata
  | withData form data le h hle =>
    cases l' with
    | headerOnly => cases hdata
    | expected => cases hdata
    | withData form' data' le' h' hle' =>
      cases hdata
      cases hexpected
      exact .withData h hle h' hle'

theorem eq_of_form {l l' : Layout} (hdata : l.data? = l'.data?)
    (hexpected : l.expected? = l'.expected?) (hform : l.form = l'.form) : l = l' := by
  cases sameFields hdata hexpected with
  | headerOnly => rfl
  | expected | withData =>
    cases hform
    rfl

/-- Short form is shorter, whenever there is a length to write. -/
theorem length_bytes_lt {l l' : Layout} (hdata : l.data? = l'.data?)
    (hexpected : l.expected? = l'.expected?) (hshort : l.form = .short)
    (hextended : l'.form = .extended) : l.bytes.length < l'.bytes.length := by
  have hmark : LengthForm.short.mark.length < LengthForm.extended.mark.length := by decide
  have hwidth : LengthForm.short.width < LengthForm.extended.width := by decide
  cases sameFields hdata hexpected with
  | headerOnly => cases hextended
  | expected =>
    cases hshort
    cases hextended
    simp only [bytes, List.length_append, length_bigEndian]
    omega
  | withData =>
    cases hshort
    cases hextended
    simp only [bytes, List.length_append, length_bigEndian, LengthForm.length_expectedBytes]
    split <;> omega

theorem bytes_inj {l l' : Layout} (h : l.bytes = l'.bytes) : l = l' := by
  have hfields : some (l.data?, l.expected?) = some (l'.data?, l'.expected?) := by
    rw [← parseFields_bytes, ← parseFields_bytes, h]
  obtain ⟨hdata, hexpected⟩ := Prod.mk.inj (Option.some.inj hfields)
  have hlength := congrArg List.length h
  apply eq_of_form hdata hexpected
  cases hform : l.form <;> cases hform' : l'.form
  · rfl
  · have := length_bytes_lt hdata hexpected hform hform'
    omega
  · have := length_bytes_lt hdata.symm hexpected.symm hform' hform
    omega
  · rfl

namespace Of

variable {l l' : Layout} {wire : Bytes} {c c' : Command}

theorem unique (h : l.Of wire c) (h' : l'.Of wire c') : l = l' ∧ c = c' := by
  have heq : c.header ++ l.bytes = c'.header ++ l'.bytes := h.wire.symm.trans h'.wire
  obtain ⟨hheader, hbytes⟩ := List.append_inj heq rfl
  obtain rfl := bytes_inj hbytes
  refine ⟨rfl, ?_⟩
  obtain ⟨cla, ins, p1, p2, data, le⟩ := c
  obtain ⟨cla', ins', p1', p2', data', le'⟩ := c'
  obtain ⟨rfl, rfl⟩ : data = data' ∧ le = le' :=
    ⟨h.data.trans h'.data.symm, h.expected.trans h'.expected.symm⟩
  simp only [header, List.cons.injEq, and_true] at hheader
  obtain ⟨rfl, rfl, rfl, rfl⟩ := hheader
  rfl

theorem parse (h : l.Of wire c) : parse wire = .ok c := by
  obtain ⟨cla, ins, p1, p2, data, le⟩ := c
  obtain ⟨rfl, rfl, rfl⟩ := h
  simp [Command.parse, header, parseFields_bytes]

end Of

end Layout

/-- The lengths of the wire form are extended. -/
def ExtendedForm (wire : Bytes) : Prop :=
  ∃ (l : Layout) (c : Command), l.Of wire c ∧ l.form = .extended

theorem Layout.Of.extendedForm_iff {l : Layout} {wire : Bytes} {c : Command} (h : l.Of wire c) :
    ExtendedForm wire ↔ l.form = .extended := by
  constructor
  · rintro ⟨l', c', h', hextended⟩
    rwa [(h.unique h').1]
  · intro hextended
    exact ⟨l, c, h, hextended⟩

theorem exists_layout_of_parse {wire : Bytes} {c : Command} (h : parse wire = .ok c) :
    ∃ l : Layout, l.Of wire c := by
  unfold parse at h
  split at h
  next cla ins p1 p2 fields =>
    split at h
    next data le hfields =>
      cases h
      obtain ⟨l, hbytes, hdata, hle⟩ := Layout.exists_of_parseFields hfields
      exact ⟨l, by rw [hbytes]; rfl, hdata.symm, hle.symm⟩
    next => cases h
  next => cases h

/-- **Grammar.** The parser accepts the layouts, and returns what they say. -/
theorem parse_eq_ok_iff {wire : Bytes} {c : Command} :
    parse wire = .ok c ↔ ∃ l : Layout, l.Of wire c :=
  ⟨exists_layout_of_parse, fun ⟨_, h⟩ => h.parse⟩

theorem parse_error {wire : Bytes} {e : ApduError} (h : parse wire = .error e) :
    e = .commandLength wire.length := by
  unfold parse at h
  split at h
  · split at h
    · cases h
    · exact (Except.error.inj h).symm
  · exact (Except.error.inj h).symm

end SmartCard.Command
