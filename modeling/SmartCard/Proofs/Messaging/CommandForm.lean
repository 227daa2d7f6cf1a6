import SmartCard.Messaging.Session
import SmartCard.Proofs.Apdu.RoundTrip
import SmartCard.Proofs.Messaging.Cryptogram
import SmartCard.Proofs.Messaging.ObjectSequence
import SmartCard.Proofs.Messaging.ResponseForm

/-!
# The form of protected commands

`protect_eq_ok_iff`: a command can be protected when it is not so already, asks for a possible
length, and has no more data than fits with the objects around it (`Protectable`). Its protected
form is then `protectedForm`, which always has a wire form, and that parses to itself.
-/

namespace SmartCard

/-! ## Which commands can be protected -/

/-- The most data that leaves room for the other objects of a protected command. -/
def Command.maxProtectable (c : Command) : Nat := if c.le.isSome then 65503 else 65519

structure Command.Protectable (c : Command) : Prop where
  unprotected : c.isProtected = false
  expected : ∀ le ∈ c.le, 1 ≤ le ∧ le ≤ Command.maxExtendedExpected
  fits : c.body.length ≤ c.maxProtectable

instance (c : Command) : Decidable c.Protectable :=
  decidable_of_iff
    (c.isProtected = false ∧ (∀ le ∈ c.le, 1 ≤ le ∧ le ≤ Command.maxExtendedExpected) ∧
      c.body.length ≤ c.maxProtectable)
    ⟨fun h => ⟨h.1, h.2.1, h.2.2⟩, fun h => ⟨h.unprotected, h.expected, h.fits⟩⟩

theorem Command.Protectable.length_body_le {c : Command} (h : c.Protectable) :
    c.body.length ≤ 65519 := by
  have hfits := h.fits
  unfold Command.maxProtectable at hfits
  split at hfits <;> omega

namespace SessionKeys

/-! ## Objects -/

/-- The value of the object of an expected length. -/
def expectedValue (le : Nat) : Bytes :=
  bigEndian (if le ≤ Command.maxShortExpected then 1 else 2) le

/-- The object of an expected length, absent if there is none. -/
def expectedObjects : Option Nat → List DataObject
  | none => []
  | some le => [⟨.expectedLength, expectedValue le⟩]

theorem ofExpectedLength_eq_ok_iff {le : Nat} {o : DataObject} :
    DataObject.ofExpectedLength le = .ok o ↔
      (1 ≤ le ∧ le ≤ Command.maxExtendedExpected) ∧ expectedObjects (some le) = [o] := by
  unfold DataObject.ofExpectedLength expectedObjects expectedValue
  have hmax : Command.maxShortExpected ≤ Command.maxExtendedExpected := by decide
  by_cases h0 : le = 0
  · simp [h0]
  · have h1 : 1 ≤ le := by omega
    by_cases hshort : le ≤ Command.maxShortExpected
    · have hlong := Nat.le_trans hshort hmax
      simp [h0, h1, hshort, hlong]
    · by_cases hlong : le ≤ Command.maxExtendedExpected <;> simp [h0, h1, hshort, hlong]

/-- The objects before the MAC, as they stand on the wire. -/
def authenticatedBytes (keys : SessionKeys) (n : Counter) (c : Command) : Bytes :=
  DataObject.encodeAll (keys.dataObject n c.body ++ expectedObjects c.le)

/-- The data of the protected form: the objects and the MAC over the header and them. -/
def protectedBody (keys : SessionKeys) (n : Counter) (c : Command) : Bytes :=
  keys.authenticatedBytes n c ++
    (keys.macObject n [protectedHeader c, keys.authenticatedBytes n c]).encode

def protectedForm (keys : SessionKeys) (n : Counter) (c : Command) : Command :=
  { c with
    cla := c.cla ||| protectedClassBits
    data := some (keys.protectedBody n c)
    le := some (wireExpectedLength c.le (keys.protectedBody n c)) }

variable {keys : SessionKeys} {n : Counter} {c w : Command}

/-! ## Sizes -/

theorem dataObject_nil (keys : SessionKeys) (n : Counter) : keys.dataObject n [] = [] := rfl

theorem dataObject_of_ne {body : Bytes} (hne : body ≠ []) :
    keys.dataObject n body =
      [⟨.encryptedData, paddingIndicator :: Cryptogram.encrypt keys.enc n.block body⟩] := by
  unfold dataObject
  simp [hne]

theorem length_dataObject_value {body : Bytes} :
    (paddingIndicator :: Cryptogram.encrypt keys.enc n.block body).length =
      (body.length / 16 + 1) * 16 + 1 := by
  rw [List.length_cons, Cryptogram.length_encrypt]

theorem length_encodeAll_expectedObjects (le : Option Nat) :
    if le.isSome then
      3 ≤ (DataObject.encodeAll (expectedObjects le)).length ∧
        (DataObject.encodeAll (expectedObjects le)).length ≤ 4
    else (DataObject.encodeAll (expectedObjects le)).length = 0 := by
  cases le with
  | none => rfl
  | some le =>
    unfold expectedObjects expectedValue
    by_cases h : le ≤ Command.maxShortExpected <;>
      simp [h, DataObject.length_encode, DataObject.encodedLength]

theorem length_macObject (keys : SessionKeys) (n : Counter) (parts : List Bytes) :
    (keys.macObject n parts).encode.length = 10 := by
  rw [DataObject.length_encode, DataObject.encodedLength, macObject, Mac.length_compute]
  rfl

/-- Whole blocks, the indicator, a tag and a length field, unless there is no data at all. -/
theorem length_encodeAll_dataObject (body : Bytes) :
    (0 < body.length →
      (body.length / 16 + 1) * 16 + 3 ≤ (DataObject.encodeAll (keys.dataObject n body)).length) ∧
    (body.length ≤ 65519 →
      (DataObject.encodeAll (keys.dataObject n body)).length ≤ (body.length / 16 + 1) * 16 + 5) := by
  by_cases hne : body = []
  · rw [hne, dataObject_nil, DataObject.encodeAll_nil, List.length_nil]
    omega
  · have hbounds := DataObject.length_encode_bounds
      ⟨.encryptedData, paddingIndicator :: Cryptogram.encrypt keys.enc n.block body⟩
    rw [length_dataObject_value] at hbounds
    rw [dataObject_of_ne hne, DataObject.encodeAll_cons, DataObject.encodeAll_nil, List.append_nil]
    omega

/-- The objects fit into a command exactly up to the limit on the data. -/
theorem length_protectedBody_le_iff :
    (keys.protectedBody n c).length ≤ Command.maxExtendedData ↔
      c.body.length ≤ c.maxProtectable := by
  have hmac := keys.length_macObject n [protectedHeader c, keys.authenticatedBytes n c]
  have hexpected := length_encodeAll_expectedObjects c.le
  have hdata := @length_encodeAll_dataObject keys n c.body
  unfold protectedBody Command.maxProtectable Command.maxExtendedData
  rw [List.length_append, hmac, authenticatedBytes, DataObject.encodeAll_append, List.length_append]
  -- With padding, the limits are one below a multiple of 16: one byte more takes another block.
  by_cases hle : c.le.isSome
  · rw [if_pos hle] at hexpected ⊢
    omega
  · rw [if_neg hle] at hexpected ⊢
    omega

theorem protectedBody_ne_nil : keys.protectedBody n c ≠ [] := by
  intro h
  have hmac := keys.length_macObject n [protectedHeader c, keys.authenticatedBytes n c]
  have := congrArg List.length h
  rw [protectedBody, List.length_append, hmac, List.length_nil] at this
  omega

/-! ## The protected form -/

theorem protect_of_isProtected (h : c.isProtected) :
    keys.protect n c = .error .alreadyProtected := by
  unfold protect
  exact if_pos h

theorem protect_of_expected (hclear : c.isProtected = false)
    (hexpected : ∀ le ∈ c.le, 1 ≤ le ∧ le ≤ Command.maxExtendedExpected) :
    keys.protect n c = keys.assemble n c (expectedObjects c.le) := by
  unfold protect
  rw [if_neg (by simp [hclear])]
  cases hle : c.le with
  | none => rfl
  | some le =>
    have hobject : DataObject.ofExpectedLength le = .ok ⟨.expectedLength, expectedValue le⟩ :=
      ofExpectedLength_eq_ok_iff.mpr ⟨hexpected le hle, rfl⟩
    simp only [hobject]
    rfl

theorem protect_of_not_expected (hclear : c.isProtected = false) {le : Nat} (hle : c.le = some le)
    (hrange : ¬ (1 ≤ le ∧ le ≤ Command.maxExtendedExpected)) :
    ∃ e, keys.protect n c = .error e := by
  unfold protect
  rw [if_neg (by simp [hclear]), hle]
  cases hobject : DataObject.ofExpectedLength le with
  | error e => exact ⟨e, by simp only [hobject]⟩
  | ok o => exact absurd (ofExpectedLength_eq_ok_iff.mp hobject).1 hrange

theorem assemble_expectedObjects :
    keys.assemble n c (expectedObjects c.le) =
      if c.body.length ≤ c.maxProtectable then .ok (keys.protectedForm n c)
      else .error .bodyTooLong := by
  have hfits := @length_protectedBody_le_iff keys n c
  by_cases hbody : c.body.length ≤ c.maxProtectable
  · rw [if_pos hbody]
    exact if_neg (Nat.not_lt.mpr (hfits.mpr hbody))
  · rw [if_neg hbody]
    exact if_pos (Nat.lt_of_not_le fun h => hbody (hfits.mp h))

theorem protect_of_protectable (h : c.Protectable) :
    keys.protect n c = .ok (keys.protectedForm n c) := by
  rw [protect_of_expected h.unprotected h.expected, assemble_expectedObjects, if_pos h.fits]

theorem protect_of_not_protectable (h : ¬ c.Protectable) : ∃ e, keys.protect n c = .error e := by
  by_cases hclear : c.isProtected = false
  · by_cases hexpected : ∀ le ∈ c.le, 1 ≤ le ∧ le ≤ Command.maxExtendedExpected
    · have hbody : ¬ c.body.length ≤ c.maxProtectable := fun hfits => h ⟨hclear, hexpected, hfits⟩
      rw [protect_of_expected hclear hexpected, assemble_expectedObjects, if_neg hbody]
      exact ⟨_, rfl⟩
    · obtain ⟨le, hle, hrange⟩ : ∃ le, c.le = some le ∧
          ¬ (1 ≤ le ∧ le ≤ Command.maxExtendedExpected) := by simpa using hexpected
      exact protect_of_not_expected hclear hle hrange
  · exact ⟨_, protect_of_isProtected (by simpa using hclear)⟩

/-- **Protection.** Exactly the protectable commands are protected, and the result is their
protected form. -/
theorem protect_eq_ok_iff :
    keys.protect n c = .ok w ↔ c.Protectable ∧ w = keys.protectedForm n c := by
  by_cases h : c.Protectable
  · rw [protect_of_protectable h]
    simp [h, eq_comm]
  · obtain ⟨e, he⟩ := @protect_of_not_protectable keys n c h
    rw [he]
    simp [h]

/-! ## On the wire -/

theorem body_protectedForm : (keys.protectedForm n c).body = keys.protectedBody n c := rfl

theorem isProtected_protectedForm : (keys.protectedForm n c).isProtected := by
  show decide ((c.cla ||| protectedClassBits) &&& protectedClassBits = protectedClassBits) = true
  rw [decide_eq_true_iff]
  apply UInt8.toBitVec_inj.mp
  show (c.cla.toBitVec ||| 0x0C) &&& 0x0C = 0x0C
  rw [BitVec.and_comm, BitVec.and_or_distrib_left]
  ext i
  simp
  tauto

theorem encodable_protectedForm (h : c.Protectable) : (keys.protectedForm n c).Encodable where
  data := length_protectedBody_le_iff.mpr h.fits
  expected := by
    intro le hle
    obtain rfl : wireExpectedLength c.le (keys.protectedBody n c) = le := Option.some.inj hle
    unfold wireExpectedLength
    split <;> decide

theorem parse_protectedForm (h : c.Protectable) :
    Command.parse (keys.protectedForm n c).encodeFields = .ok (keys.protectedForm n c) := by
  rw [Command.parse_encodeFields (encodable_protectedForm h),
    Command.normalized_of_data rfl protectedBody_ne_nil]

theorem take_protectedForm : (keys.protectedForm n c).encodeFields.take 4 = protectedHeader c := rfl

end SessionKeys

/-- A session that protects a command has stepped once before. -/
theorem Session.encrypt_eq_ok_iff {s after : Session} {c w : Command} :
    s.encrypt c = (.ok w, after) ↔
      c.Protectable ∧ w = s.keys.protectedForm s.counter.next c ∧ after = s.step := by
  rw [← and_assoc, ← SessionKeys.protect_eq_ok_iff]
  unfold Session.encrypt
  show ((s.keys.protect s.counter.next c).mapError _, s.step) = _ ↔ _
  cases s.keys.protect s.counter.next c <;> simp [Except.mapError, eq_comm]

theorem Session.encrypt_of_protectable {s : Session} {c : Command} (h : c.Protectable) :
    s.encrypt c = (.ok (s.keys.protectedForm s.counter.next c), s.step) :=
  encrypt_eq_ok_iff.mpr ⟨h, rfl, rfl⟩

theorem Session.encrypt_of_not_protectable {s : Session} {c : Command} (h : ¬ c.Protectable) :
    ∃ e, s.encrypt c = (.error (.malformed e), s.step) := by
  obtain ⟨e, he⟩ := @SessionKeys.protect_of_not_protectable s.keys s.counter.next c h
  refine ⟨e, ?_⟩
  show ((s.keys.protect s.counter.next c).mapError MessagingError.malformed, s.step) = _
  rw [he]
  rfl

/-! ## Protected wire forms -/

/-- The objects that stand before the MAC of a protected command. -/
def protectedObjects (data expected : Option Bytes) : List DataObject :=
  (data.map (DataObject.mk .encryptedData)).toList ++
    (expected.map (DataObject.mk .expectedLength)).toList

/-- `wire` is a protected command at `n`: nothing but optional data, an optional expected length
and the MAC over the header and these. -/
def ProtectedWire (keys : SessionKeys) (n : Counter) (hasData : Bool) (wire : Bytes) : Prop :=
  ∃ (w : Command) (data expected : Option Bytes) (mac : Bytes),
    Command.parse wire = .ok w ∧ w.isProtected ∧
    w.body = DataObject.encodeAll (protectedObjects data expected) ++ (DataObject.mk .mac mac).encode ∧
    DataObject.decodeAll w.body = .ok (protectedObjects data expected ++ [⟨.mac, mac⟩]) ∧
    mac.length = 8 ∧
    mac = Mac.compute keys.mac n.block
      [wire.take 4, DataObject.encodeAll (protectedObjects data expected)] ∧
    data.isSome = hasData

namespace SessionKeys

variable {keys : SessionKeys} {n : Counter} {c : Command}

/-- The value of the data object. -/
def dataValue? (keys : SessionKeys) (n : Counter) (body : Bytes) : Option Bytes :=
  if body.isEmpty then none
  else some (paddingIndicator :: Cryptogram.encrypt keys.enc n.block body)

theorem protectedObjects_eq (keys : SessionKeys) (n : Counter) (c : Command) :
    protectedObjects (keys.dataValue? n c.body) (c.le.map expectedValue) =
      keys.dataObject n c.body ++ expectedObjects c.le := by
  unfold protectedObjects dataValue? dataObject
  cases hle : c.le <;> cases hbody : c.body <;> rfl

theorem isSome_dataValue? (body : Bytes) :
    (keys.dataValue? n body).isSome = !body.isEmpty := by
  unfold dataValue?
  cases body <;> rfl

theorem length_dataValue?_lt (h : c.Protectable) {value : Bytes}
    (hvalue : value ∈ keys.dataValue? n c.body) : value.length < 2 ^ 32 := by
  have hfits := h.length_body_le
  unfold dataValue? at hvalue
  split at hvalue
  next => cases hvalue
  next =>
    obtain rfl := Option.some.inj hvalue
    rw [length_dataObject_value]
    omega

theorem length_expectedValue_lt (le : Nat) : (expectedValue le).length < 2 ^ 32 := by
  unfold expectedValue
  rw [length_bigEndian]
  split <;> omega

/-- No object is too long for its length field. -/
theorem length_value_lt (h : c.Protectable) {o : DataObject}
    (ho : o ∈ protectedObjects (keys.dataValue? n c.body) (c.le.map expectedValue)) :
    o.value.length < 2 ^ 32 := by
  rcases List.mem_append.mp ho with ho | ho
  · obtain ⟨value, hvalue, rfl⟩ := Option.map_eq_some_iff.mp (Option.mem_toList.mp ho)
    exact length_dataValue?_lt h hvalue
  · obtain ⟨value, hvalue, rfl⟩ := Option.map_eq_some_iff.mp (Option.mem_toList.mp ho)
    obtain ⟨le, -, rfl⟩ := Option.map_eq_some_iff.mp hvalue
    exact length_expectedValue_lt le

theorem decodeAll_protectedBody (h : c.Protectable) :
    DataObject.decodeAll (keys.protectedBody n c) =
      .ok (protectedObjects (keys.dataValue? n c.body) (c.le.map expectedValue) ++
        [keys.macObject n [protectedHeader c, keys.authenticatedBytes n c]]) := by
  have hbody : keys.protectedBody n c =
      DataObject.encodeAll (protectedObjects (keys.dataValue? n c.body) (c.le.map expectedValue) ++
        [keys.macObject n [protectedHeader c, keys.authenticatedBytes n c]]) := by
    rw [DataObject.encodeAll_append, protectedObjects_eq, DataObject.encodeAll_cons,
      DataObject.encodeAll_nil, List.append_nil]
    rfl
  rw [hbody]
  apply DataObject.decodeAll_encodeAll
  intro o ho
  rcases List.mem_append.mp ho with ho | ho
  · exact length_value_lt h ho
  · obtain rfl := List.mem_singleton.mp ho
    show (Mac.compute _ _ _).length < 2 ^ 32
    rw [Mac.length_compute]
    decide

/-- The wire form of the protected form is protected. -/
theorem protectedWire_protectedForm (h : c.Protectable) :
    ProtectedWire keys n (!c.body.isEmpty) (keys.protectedForm n c).encodeFields := by
  refine ⟨keys.protectedForm n c, keys.dataValue? n c.body, c.le.map expectedValue,
    Mac.compute keys.mac n.block [protectedHeader c, keys.authenticatedBytes n c],
    parse_protectedForm h, isProtected_protectedForm, ?_, decodeAll_protectedBody h,
    Mac.length_compute .., ?_, isSome_dataValue? c.body⟩
  · rw [protectedObjects_eq]
    rfl
  · rw [protectedObjects_eq, take_protectedForm]
    rfl

end SessionKeys

end SmartCard
