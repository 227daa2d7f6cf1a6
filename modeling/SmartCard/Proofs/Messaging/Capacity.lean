import SmartCard.Proofs.Messaging.CommandForm

/-!
# What fits into a protected command

The size of a protected command follows from the size of the plain one: padding to whole blocks, the
padding indicator, the length fields of the objects and the MAC. `encrypt_capacity` says which
commands a session takes, how long they become, and how they stand on the wire.
-/

namespace SmartCard

/-! ## Sizes of objects -/

/-- The bytes that the length of a value takes, for values that a command can hold. -/
def lengthFieldSize (n : Nat) : Nat :=
  if n < 0x80 then 1 else if n < 0x100 then 2 else 3

/-- The bytes of the object for `n` bytes of data: no data is no object. -/
def dataObjectSize (n : Nat) : Nat :=
  if n = 0 then 0
  else
    let value := 1 + (n / 16 + 1) * 16
    1 + lengthFieldSize value + value

/-- The bytes of the object of an expected length. -/
def expectedObjectSize : Option Nat → Nat
  | none => 0
  | some le => if le ≤ Command.maxShortExpected then 3 else 4

theorem expectedObjectSize_le (le : Option Nat) : expectedObjectSize le ≤ 4 := by
  cases le with
  | none => exact Nat.zero_le 4
  | some le =>
    rw [expectedObjectSize]
    split <;> decide

theorem DataObject.length_encode_of_lt {o : DataObject} (h : o.value.length < 65536) :
    o.encode.length = 1 + lengthFieldSize o.value.length + o.value.length := by
  rw [length_encode]
  unfold encodedLength lengthFieldSize
  by_cases h1 : o.value.length < 0x80
  · simp [h1]
  · have hpos : 0 < byteWidth o.value.length := byteWidth_pos (by omega)
    by_cases h2 : o.value.length < 0x100
    · have hwidth : byteWidth o.value.length ≤ 1 := byteWidth_le (by omega)
      simp [h1, h2]
      omega
    · have hwidth : byteWidth o.value.length ≤ 2 := byteWidth_le (by omega)
      have hne : byteWidth o.value.length ≠ 1 := by
        intro hone
        have := lt_pow_byteWidth o.value.length
        rw [hone] at this
        omega
      simp [h1, h2]
      omega

namespace SessionKeys

variable {keys : SessionKeys} {n : Counter} {c : Command}

theorem length_encodeAll_dataObject_eq {body : Bytes} (h : body.length ≤ 65519) :
    (DataObject.encodeAll (keys.dataObject n body)).length = dataObjectSize body.length := by
  by_cases hne : body = []
  · rw [hne]
    rfl
  · have hlength : body.length ≠ 0 := by simpa using hne
    have hvalue := @length_dataObject_value keys n body
    unfold dataObjectSize
    rw [dataObject_of_ne hne, DataObject.encodeAll_cons, DataObject.encodeAll_nil, List.append_nil,
      if_neg hlength, DataObject.length_encode_of_lt (by rw [hvalue]; omega), hvalue,
      Nat.add_comm _ 1]

theorem length_encodeAll_expectedObjects_eq (le : Option Nat) :
    (DataObject.encodeAll (expectedObjects le)).length = expectedObjectSize le := by
  cases le with
  | none => rfl
  | some le =>
    unfold expectedObjects expectedValue expectedObjectSize
    by_cases h : le ≤ Command.maxShortExpected <;>
      simp [h, DataObject.length_encode, DataObject.encodedLength]

theorem length_protectedBody (h : c.Protectable) :
    (keys.protectedBody n c).length =
      10 + dataObjectSize c.body.length + expectedObjectSize c.le := by
  unfold protectedBody authenticatedBytes
  rw [List.length_append, length_macObject, DataObject.encodeAll_append, List.length_append,
    length_encodeAll_dataObject_eq h.length_body_le, length_encodeAll_expectedObjects_eq]
  omega

/-! ## The form of the lengths -/

/-- One of the two lengths does not fit into a byte. -/
def NeedsExtended (le : Option Nat) (body : Bytes) : Prop :=
  Command.maxShortData < body.length ∨ ∃ le' ∈ le, Command.maxShortExpected < le'

theorem needsExtended_iff {le : Option Nat} {body : Bytes} :
    NeedsExtended le body ↔
      (le.any (Command.maxShortExpected < ·) || Command.maxShortData < body.length) = true := by
  unfold NeedsExtended
  cases le <;> simp [or_comm]

theorem wireExpectedLength_of_needsExtended {le : Option Nat} {body : Bytes}
    (h : NeedsExtended le body) : wireExpectedLength le body = Command.maxExtendedExpected :=
  if_pos (needsExtended_iff.mp h)

theorem wireExpectedLength_of_not_needsExtended {le : Option Nat} {body : Bytes}
    (h : ¬ NeedsExtended le body) : wireExpectedLength le body = Command.maxShortExpected :=
  if_neg (needsExtended_iff.not.mp h)

/-- The expected length on the wire is chosen so that both lengths take the same form. -/
theorem lengthForm_protectedForm :
    (keys.protectedForm n c).lengthForm = .extended ↔
      NeedsExtended c.le (keys.protectedBody n c) := by
  have hform : (keys.protectedForm n c).isExtended =
      (decide (Command.maxShortData < (keys.protectedBody n c).length) ||
        decide (Command.maxShortExpected <
          wireExpectedLength c.le (keys.protectedBody n c))) := rfl
  rw [Command.lengthForm_eq_extended_iff, hform]
  by_cases h : NeedsExtended c.le (keys.protectedBody n c)
  · rw [wireExpectedLength_of_needsExtended h]
    simp [h, Command.maxShortExpected, Command.maxExtendedExpected]
  · have hshort := (not_or.mp h).1
    rw [wireExpectedLength_of_not_needsExtended h]
    simp [h, hshort]

/-- The expected length on the wire is the largest of its form, which is written as zeros. -/
theorem expectedBytes_protectedForm {form : Command.LengthForm}
    (h : (keys.protectedForm n c).lengthForm = form) :
    form.expectedBytes (keys.protectedForm n c).le = List.replicate form.width 0 := by
  show form.expectedBytes (some (wireExpectedLength c.le (keys.protectedBody n c))) = _
  cases form with
  | extended =>
    rw [wireExpectedLength_of_needsExtended (lengthForm_protectedForm.mp h)]
    rfl
  | short =>
    have hshort : ¬ NeedsExtended c.le (keys.protectedBody n c) := by
      rw [← lengthForm_protectedForm, h]
      decide
    rw [wireExpectedLength_of_not_needsExtended hshort]
    rfl

theorem encodeFields_protectedForm {form : Command.LengthForm}
    (h : (keys.protectedForm n c).lengthForm = form) :
    (keys.protectedForm n c).encodeFields =
      protectedHeader c ++ form.mark ++ bigEndian form.width (keys.protectedBody n c).length ++
        keys.protectedBody n c ++ List.replicate form.width 0 := by
  have hne : (keys.protectedForm n c).body ≠ [] := protectedBody_ne_nil
  have hempty : (keys.protectedForm n c).body.isEmpty = false := by simpa using hne
  rw [Command.encodeFields, Command.isExtended_eq_lengthForm, h, Command.dataField_of_ne hne,
    hempty, Bool.not_false, Command.expectedField_of_data, expectedBytes_protectedForm h]
  simp only [List.append_assoc]
  rfl

/-- The wire form, in full. -/
theorem encodeFields_protectedForm_eq :
    let w := keys.protectedForm n c
    w.encodeFields =
      if 255 < w.body.length ∨ ∃ le ∈ c.le, 256 < le then
        w.header ++ [0] ++ bigEndian 2 w.body.length ++ w.body ++ [0, 0]
      else w.header ++ bigEndian 1 w.body.length ++ w.body ++ [0] := by
  intro w
  by_cases h : NeedsExtended c.le (keys.protectedBody n c)
  · exact (encodeFields_protectedForm (lengthForm_protectedForm.mpr h)).trans (if_pos h).symm
  · have hshort : w.lengthForm = .short := by
      cases hform : w.lengthForm with
      | short => rfl
      | extended => exact absurd (lengthForm_protectedForm.mp hform) h
    refine (encodeFields_protectedForm hshort).trans ((if_neg h).trans ?_).symm
    simp [Command.LengthForm.mark]
    rfl

theorem extendedForm_protectedForm (h : c.Protectable) :
    Command.ExtendedForm (keys.protectedForm n c).encodeFields ↔
      NeedsExtended c.le (keys.protectedBody n c) := by
  obtain ⟨l, hl, hform⟩ := (@encodable_protectedForm keys n c h).exists_layout
  rw [hl.extendedForm_iff, hform, lengthForm_protectedForm]

end SessionKeys

/-! ## Sessions -/

theorem Command.protectable_iff {c : Command} :
    c.Protectable ↔
      c.cla &&& 0x0C ≠ 0x0C ∧ (∀ le ∈ c.le, 1 ≤ le ∧ le ≤ 65536) ∧
        c.body.length ≤ if c.le.isSome then 65503 else 65519 := by
  constructor
  · intro h
    exact ⟨of_decide_eq_false h.unprotected, h.expected, h.fits⟩
  · rintro ⟨hclear, hexpected, hfits⟩
    exact ⟨decide_eq_false hclear, hexpected, hfits⟩

namespace Session

/-- Protected commands are not protected again. -/
theorem encrypt_of_isProtected {s : Session} {c : Command} (h : c.isProtected) :
    s.encrypt c = (.error (.malformed .alreadyProtected), s.step) := by
  show ((s.keys.protect s.counter.next c).mapError MessagingError.malformed, s.step) = _
  rw [SessionKeys.protect_of_isProtected h]
  rfl

/-- **Capacity.** A session protects exactly the commands that are not protected, expect a possible
length and have no more data than fits; all others are malformed, and the counter moves on either
way. The protected command has a size that is known beforehand. It always has a wire form, which is
extended exactly if one of the lengths needs it, expects the most that its form can say, and parses
to the protected command again. No session protects that once more. -/
theorem encrypt_capacity (s : Session) (c : Command) :
    ((∃ w, (s.encrypt c).1 = .ok w) ↔
      c.cla &&& 0x0C ≠ 0x0C ∧ (∀ le ∈ c.le, 1 ≤ le ∧ le ≤ 65536) ∧
        c.body.length ≤ if c.le.isSome then 65503 else 65519) ∧
    (∀ e, (s.encrypt c).1 = .error e → ∃ reason, e = .malformed reason) ∧
    (s.encrypt c).2 = ⟨s.keys, s.counter.next⟩ ∧
    ∀ w, (s.encrypt c).1 = .ok w →
      w.body.length = 10 + dataObjectSize c.body.length + expectedObjectSize c.le ∧
      (∃ wire, w.encode = .ok wire ∧ Command.parse wire = .ok w ∧
        (Command.ExtendedForm wire ↔ 255 < w.body.length ∨ ∃ le ∈ c.le, 256 < le) ∧
        wire = if 255 < w.body.length ∨ ∃ le ∈ c.le, 256 < le then
            w.header ++ [0] ++ bigEndian 2 w.body.length ++ w.body ++ [0, 0]
          else w.header ++ bigEndian 1 w.body.length ++ w.body ++ [0]) ∧
      ∀ s' : Session, s'.encrypt w = (.error (.malformed .alreadyProtected), s'.step) := by
  rw [← Command.protectable_iff]
  by_cases hc : c.Protectable
  · rw [encrypt_of_protectable hc]
    refine ⟨iff_of_true ⟨_, rfl⟩ hc, ?_, rfl, ?_⟩
    · intro e he
      cases he
    · intro w hw
      obtain rfl : s.keys.protectedForm s.counter.next c = w := Except.ok.inj hw
      have hencodable := @SessionKeys.encodable_protectedForm s.keys s.counter.next c hc
      exact ⟨SessionKeys.length_protectedBody hc,
        ⟨_, hencodable.encode, SessionKeys.parse_protectedForm hc,
          SessionKeys.extendedForm_protectedForm hc, SessionKeys.encodeFields_protectedForm_eq⟩,
        fun _ => encrypt_of_isProtected SessionKeys.isProtected_protectedForm⟩
  · obtain ⟨reason, hrefused⟩ := encrypt_of_not_protectable (s := s) hc
    rw [hrefused]
    refine ⟨iff_of_false ?_ hc, ?_, rfl, ?_⟩
    · rintro ⟨w, hw⟩
      cases hw
    · intro e he
      cases he
      exact ⟨reason, rfl⟩
    · intro w hw
      cases hw

/-- Where the length field of the data object grows, and the most data that there can be. -/
example : [111, 112, 239, 240, 65519].map dataObjectSize = [115, 132, 244, 261, 65525] := by decide

end Session

end SmartCard
