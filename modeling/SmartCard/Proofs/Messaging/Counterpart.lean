import SmartCard.Proofs.Messaging.CommandForm
import SmartCard.Proofs.Messaging.Verdict

/-!
# The other end of a session

What a conforming card does with a protected command, and how it protects its answer.

* `recover_protectedForm`: it recovers every command that a session protects.
* `unprotect_protectedAnswer`: the session reads back every answer that it protects.
-/

namespace SmartCard

/-! ## Reading commands -/

/-- The length that the value of an expected length object denotes. -/
def expectedLength? : Bytes → Option Nat
  | [b] => some (Command.shortExpected b)
  | [hi, lo] => some (Command.extendedExpected hi lo)
  | _ => none

/-- The objects of a protected command, up to its MAC. -/
structure ReceivedObjects where
  cryptogram : Option Bytes
  expected : Option Nat
  /-- The received bytes before the MAC object. -/
  authenticated : Bytes
  mac : Bytes

/-- Read the objects of `body` from `input` on, the last of which has to be a MAC. Those before
have brought `cryptogram` and `expected`. -/
def readObjects (body input : Bytes) (cryptogram : Option Bytes) (expected : Option Nat) :
    Option ReceivedObjects :=
  match _h : DataObject.decode input with
  | .error _ => none
  | .ok (o, rest) =>
    match o.tag with
    | .encryptedData => readObjects body rest (some o.value) expected
    | .expectedLength =>
      (expectedLength? o.value).bind fun le => readObjects body rest cryptogram (some le)
    | .mac =>
      if rest = [] then
        some ⟨cryptogram, expected, body.take (body.length - input.length), o.value⟩
      else none
    | .plainData | .status => none
termination_by input.length
decreasing_by
  all_goals
    have := DataObject.length_of_decode _h
    omega

namespace SessionKeys

/-- The data in an encrypted data object. -/
def openValue (keys : SessionKeys) (n : Counter) : Bytes → Option Bytes
  | [] => none
  | indicator :: cryptogram =>
    if indicator = paddingIndicator then (Cryptogram.decrypt keys.enc n.block cryptogram).toOption
    else none

/-- The command that a card recovers from its protected form, if it is authentic at `n`. Its class
stays as it was on the wire. -/
def recover (keys : SessionKeys) (n : Counter) (wire : Bytes) : Option Command := do
  let w ← (Command.parse wire).toOption
  guard w.isProtected
  let received ← readObjects w.body w.body none none
  guard (Mac.verify (Mac.compute keys.mac n.block [w.header, received.authenticated]) received.mac)
  let data ← received.cryptogram.mapM (keys.openValue n)
  return { w with data, le := received.expected }

end SessionKeys

/-! ## Protecting answers -/

namespace SessionKeys

/-- The payload of an answer, encrypted or plain. -/
def answerData (keys : SessionKeys) (n : Counter) (encrypts : Bool) (payload : Bytes) :
    Option DataObject :=
  if payload.isEmpty then none
  else if encrypts then
    some ⟨.encryptedData, paddingIndicator :: Cryptogram.encrypt keys.enc n.block payload⟩
  else some ⟨.plainData, payload⟩

/-- The objects that stand before the MAC of an answer. -/
def answerObjects (keys : SessionKeys) (n : Counter) (encrypts : Bool) (r : Response) :
    List DataObject :=
  (keys.answerData n encrypts r.payload).toList ++ [⟨.status, r.status.toBytes⟩]

/-- A response protected at `n`, its payload encrypted or not, with a status word behind. -/
def protectedAnswer (keys : SessionKeys) (n : Counter) (encrypts : Bool) (r : Response)
    (trailer : StatusWord) : Bytes :=
  let objects := DataObject.encodeAll (keys.answerObjects n encrypts r)
  objects ++ (keys.macObject n [objects]).encode ++ trailer.toBytes

end SessionKeys

/-! ## Commands are recovered -/

theorem readObjects_of_decode {body input rest : Bytes} {cryptogram : Option Bytes}
    {expected : Option Nat} {o : DataObject} (h : DataObject.decode input = .ok (o, rest)) :
    readObjects body input cryptogram expected =
      match o.tag with
      | .encryptedData => readObjects body rest (some o.value) expected
      | .expectedLength =>
        (expectedLength? o.value).bind fun le => readObjects body rest cryptogram (some le)
      | .mac =>
        if rest = [] then
          some ⟨cryptogram, expected, body.take (body.length - input.length), o.value⟩
        else none
      | .plainData | .status => none := by
  conv => lhs; unfold readObjects
  split
  next hdecode =>
    rw [h] at hdecode
    cases hdecode
  next hdecode =>
    rw [h] at hdecode
    cases hdecode
    rfl

theorem expectedLength?_expectedValue {le : Nat} (h : 1 ≤ le)
    (h' : le ≤ Command.maxExtendedExpected) :
    expectedLength? (SessionKeys.expectedValue le) = some le := by
  unfold SessionKeys.expectedValue
  by_cases hshort : le ≤ Command.maxShortExpected
  · rw [if_pos hshort, bigEndian_one]
    exact congrArg some (Command.shortExpected_ofNat h hshort)
  · rw [if_neg hshort, bigEndian_two]
    exact congrArg some (Command.extendedExpected_bigEndian h h')

/-- The MAC object ends the reading, with all that stands before it authenticated. -/
theorem readObjects_mac {objects mac : Bytes} {cryptogram : Option Bytes} {expected : Option Nat}
    (h : mac.length < 2 ^ 32) :
    readObjects (objects ++ (DataObject.mk .mac mac).encode) (DataObject.mk .mac mac).encode
      cryptogram expected = some ⟨cryptogram, expected, objects, mac⟩ := by
  have hdecode := @DataObject.decode_encode_append ⟨.mac, mac⟩ h []
  rw [List.append_nil] at hdecode
  rw [readObjects_of_decode hdecode, List.length_append, Nat.add_sub_cancel, List.take_left]
  rfl

/-- The objects of a protected command are read one after another, whichever it has. -/
theorem readObjects_protected {data : Option Bytes} {expected : Option Nat} {mac : Bytes}
    (hdata : ∀ value ∈ data, value.length < 2 ^ 32)
    (hexpected : ∀ le ∈ expected, 1 ≤ le ∧ le ≤ Command.maxExtendedExpected)
    (hmac : mac.length < 2 ^ 32) :
    let objects := DataObject.encodeAll
      (protectedObjects data (expected.map SessionKeys.expectedValue))
    readObjects (objects ++ (DataObject.mk .mac mac).encode)
        (objects ++ (DataObject.mk .mac mac).encode) none none =
      some ⟨data, expected, objects, mac⟩ := by
  intro objects
  -- The expected length and the MAC, whatever data object was read before.
  have htail (cryptogram : Option Bytes) :
      readObjects (objects ++ (DataObject.mk .mac mac).encode)
        (DataObject.encodeAll (protectedObjects none (expected.map SessionKeys.expectedValue)) ++
          (DataObject.mk .mac mac).encode) cryptogram none =
        some ⟨cryptogram, expected, objects, mac⟩ := by
    cases expected with
    | none => exact readObjects_mac hmac
    | some le =>
      obtain ⟨h1, h2⟩ := hexpected le rfl
      have hdecode := @DataObject.decode_encode_append
        ⟨.expectedLength, SessionKeys.expectedValue le⟩ (SessionKeys.length_expectedValue_lt le)
        (DataObject.mk .mac mac).encode
      show readObjects _ ((DataObject.mk .expectedLength _).encode ++ [] ++ _) _ _ = _
      rw [List.append_nil, readObjects_of_decode hdecode]
      show (expectedLength? (SessionKeys.expectedValue le)).bind _ = _
      rw [expectedLength?_expectedValue h1 h2]
      exact readObjects_mac hmac
  cases data with
  | none => exact htail none
  | some value =>
    have hdecode := @DataObject.decode_encode_append ⟨.encryptedData, value⟩ (hdata value rfl)
      (DataObject.encodeAll (protectedObjects none (expected.map SessionKeys.expectedValue)) ++
        (DataObject.mk .mac mac).encode)
    have hsplit : objects ++ (DataObject.mk .mac mac).encode =
        (DataObject.mk .encryptedData value).encode ++
          (DataObject.encodeAll (protectedObjects none (expected.map SessionKeys.expectedValue)) ++
            (DataObject.mk .mac mac).encode) := List.append_assoc ..
    conv => lhs; arg 2; rw [hsplit]
    rw [readObjects_of_decode hdecode]
    exact htail (some value)

namespace SessionKeys

variable {keys : SessionKeys} {n : Counter} {c : Command}

theorem openValue_encrypted (keys : SessionKeys) (n : Counter) (body : Bytes) :
    keys.openValue n (paddingIndicator :: Cryptogram.encrypt keys.enc n.block body) = some body := by
  simp only [openValue]
  rw [if_pos trivial, Cryptogram.decrypt_encrypt]
  rfl

theorem mapM_openValue (keys : SessionKeys) (n : Counter) (body : Bytes) :
    (keys.dataValue? n body).mapM (keys.openValue n) = some (Command.field body) := by
  unfold dataValue? Command.field
  by_cases hbody : body.isEmpty = true
  · rw [if_pos hbody, if_pos hbody]
    rfl
  · rw [if_neg hbody, if_neg hbody]
    show (keys.openValue n _).map some = _
    rw [openValue_encrypted]
    rfl

theorem readObjects_protectedBody (h : c.Protectable) :
    readObjects (keys.protectedBody n c) (keys.protectedBody n c) none none =
      some ⟨keys.dataValue? n c.body, c.le, keys.authenticatedBytes n c,
        Mac.compute keys.mac n.block [protectedHeader c, keys.authenticatedBytes n c]⟩ := by
  have hread := @readObjects_protected (keys.dataValue? n c.body) c.le
    (Mac.compute keys.mac n.block [protectedHeader c, keys.authenticatedBytes n c])
    (fun _ hvalue => length_dataValue?_lt h hvalue) h.expected
    (by rw [Mac.length_compute]; decide)
  rw [protectedObjects_eq] at hread
  exact hread

/-- **Recovery.** A card recovers every command that is protected for it, with the class as on the
wire and empty data left out. -/
theorem recover_protectedForm (h : c.Protectable) :
    keys.recover n (keys.protectedForm n c).encodeFields =
      some { c.normalized with cla := c.cla ||| protectedClassBits } := by
  have hparse : (Command.parse (keys.protectedForm n c).encodeFields).toOption =
      some (keys.protectedForm n c) := by
    rw [parse_protectedForm h]
    rfl
  have hmac : Mac.verify
      (Mac.compute keys.mac n.block [(keys.protectedForm n c).header, keys.authenticatedBytes n c])
      (Mac.compute keys.mac n.block [protectedHeader c, keys.authenticatedBytes n c]) = true :=
    decide_eq_true rfl
  unfold recover
  simp only [hparse, bind, Option.bind, guard, isProtected_protectedForm, if_true,
    body_protectedForm, readObjects_protectedBody h, hmac, pure, mapM_openValue]
  rfl

/-! ## Answers are accepted -/

section Answer

variable {encrypts : Bool} {payload : Bytes} {r : Response} {trailer : StatusWord}

theorem dataForm_answerData (hlen : payload.length < 2 ^ 31) :
    ProtectedResponse.DataForm (keys.answerData n encrypts payload)
      (DataObject.encodeAll (keys.answerData n encrypts payload).toList) := by
  unfold answerData
  split
  next => rfl
  next =>
    split
    next =>
      refine ⟨.inr rfl, ?_⟩
      rw [Option.toList_some, DataObject.encodeAll_cons, DataObject.encodeAll_nil, List.append_nil]
      apply DataObject.spelling_encode
      rw [length_dataObject_value]
      omega
    next =>
      refine ⟨.inl rfl, ?_⟩
      rw [Option.toList_some, DataObject.encodeAll_cons, DataObject.encodeAll_nil, List.append_nil]
      exact DataObject.spelling_encode (Nat.lt_trans hlen (by decide))

theorem payload_answerData {p : ProtectedResponse}
    (h : p.data = keys.answerData n encrypts payload) : p.payload keys.enc n = .ok payload := by
  unfold answerData at h
  split at h
  next hempty =>
    rw [ProtectedResponse.payload_of_none h, List.isEmpty_iff.mp hempty]
  next =>
    split at h
    next => rw [ProtectedResponse.payload_of_cryptogram h, Cryptogram.decrypt_encrypt]
    next => rw [ProtectedResponse.payload_of_plain h]

/-- An answer taken apart again. -/
def answerForm (keys : SessionKeys) (n : Counter) (encrypts : Bool) (r : Response) :
    ProtectedResponse where
  data := keys.answerData n encrypts r.payload
  status := r.status
  authenticated := DataObject.encodeAll (keys.answerObjects n encrypts r)
  mac := Mac.compute keys.mac n.block [DataObject.encodeAll (keys.answerObjects n encrypts r)]

theorem form_protectedAnswer (hlen : r.payload.length < 2 ^ 31) :
    (keys.answerForm n encrypts r).Form (keys.protectedAnswer n encrypts r trailer) := by
  have hstatus : DataObject.Spelling ⟨.status, r.status.toBytes⟩
      (DataObject.mk .status r.status.toBytes).encode :=
    DataObject.spelling_encode (by show 2 < 2 ^ 32; decide)
  have hmac : DataObject.Spelling ⟨.mac, (keys.answerForm n encrypts r).mac⟩
      (DataObject.mk .mac (keys.answerForm n encrypts r).mac).encode :=
    DataObject.spelling_encode (by rw [answerForm, Mac.length_compute]; decide)
  refine ⟨_, _, _, trailer.sw1, trailer.sw2, dataForm_answerData hlen, hstatus, ?_, hmac,
    Mac.length_compute .., rfl⟩
  show DataObject.encodeAll (keys.answerObjects n encrypts r) = _
  rw [answerObjects, DataObject.encodeAll_append, DataObject.encodeAll_cons,
    DataObject.encodeAll_nil, List.append_nil]

/-- **Answers.** A session reads back what the card has protected at the same counter value. -/
theorem unprotect_protectedAnswer (hlen : r.payload.length < 2 ^ 31) :
    keys.unprotect n (keys.protectedAnswer n encrypts r trailer) = .ok r := by
  have hpayload : (keys.answerForm n encrypts r).payload keys.enc n = .ok r.payload :=
    payload_answerData rfl
  rw [unprotect_of_authentic (form_protectedAnswer hlen) rfl, hpayload]
  rfl

end Answer

end SessionKeys

end SmartCard
