import SmartCard.Messaging.Calls
import SmartCard.Proofs.Messaging.ObjectFaults
import SmartCard.Proofs.Messaging.Verdict

/-!
# What forgeries learn

A response is looked at in three stages: its form, its MAC, its data. The first two do not read the
encryption key, and whatever fails in them is answered there.

`decrypt_forgery`: what is not genuine has the same error under every encryption key, and the errors
that tell of a padding indicator, a cryptogram or a padding are kept for genuine responses.
-/

namespace SmartCard

/-! ## The faults of each stage -/

/-- What can be wrong with one data object. -/
def DataObject.faults : List Malformation :=
  [.missingObject, .truncatedLength, .indefiniteLength, .lengthFieldTooLong, .truncatedValue,
    .unexpectedTag]

/-- What can be wrong with the form of a protected response. -/
def ProtectedResponse.faults : List Malformation :=
  DataObject.faults ++ [.responseTooShort, .statusObjectLength, .missingStatusObject,
    .macObjectLength, .missingMacObject, .missingTrailingStatus]

/-- The error tells something about the data of a response. -/
inductive MessagingError.OfData : MessagingError → Prop
  | indicator : OfData (.malformed .unsupportedPaddingIndicator)
  | padding : OfData (.malformed .invalidPadding)
  | cryptogram (fault : CryptoFault) : OfData (.crypto fault)

namespace DataObject

variable {bs : Bytes} {reason : Malformation}

theorem mem_faults_of_decode (h : decode bs = .error reason) : reason ∈ faults := by
  cases decode_eq_error_iff.mp h with
  | length hlength => cases hlength <;> decide
  | missing | truncated | tag => decide

end DataObject

namespace ProtectedResponse

variable {bs w : Bytes} {reason : Malformation}

theorem mem_faults_of_object (h : reason ∈ DataObject.faults) : reason ∈ faults :=
  List.mem_append_left _ h

theorem mem_faults_of_readData (h : readData bs = .error reason) : reason ∈ faults := by
  have announced (h : (DataObject.decode bs).map (fun read => (some read.1, read.2)) =
      .error reason) : reason ∈ faults := by
    cases hdecode : DataObject.decode bs with
    | error e =>
      rw [hdecode] at h
      cases h
      exact mem_faults_of_object (DataObject.mem_faults_of_decode hdecode)
    | ok read =>
      rw [hdecode] at h
      cases h
  unfold readData at h
  split at h
  next => exact announced h
  next => exact announced h
  next => cases h

theorem mem_faults_of_readStatus (h : readStatus bs = .error reason) : reason ∈ faults := by
  unfold readStatus at h
  split at h
  next hdecode =>
    cases h
    exact mem_faults_of_object (DataObject.mem_faults_of_decode hdecode)
  next => cases h
  next =>
    cases h
    decide
  next =>
    cases h
    decide

theorem mem_faults_of_readMac (h : readMac bs = .error reason) : reason ∈ faults := by
  unfold readMac at h
  split at h
  next hdecode =>
    cases h
    exact mem_faults_of_object (DataObject.mem_faults_of_decode hdecode)
  next =>
    split at h <;> cases h
    decide
  next =>
    cases h
    decide

theorem mem_faults_of_parse (h : parse w = .error reason) : reason ∈ faults := by
  unfold parse at h
  simp only [bind, Except.bind, throw, throwThe, MonadExceptOf.throw, pure, Except.pure] at h
  split at h
  next =>
    cases h
    decide
  next =>
    split at h
    next hdata =>
      cases h
      exact mem_faults_of_readData hdata
    next =>
      split at h
      next hstatus =>
        cases h
        exact mem_faults_of_readStatus hstatus
      next =>
        split at h
        next hmac =>
          cases h
          exact mem_faults_of_readMac hmac
        next =>
          split at h <;> cases h
          decide

theorem not_ofData_of_mem_faults (h : reason ∈ faults) :
    ¬ (MessagingError.malformed reason).OfData := by
  rintro (_ | _) <;> exact absurd h (by decide)

/-! ## Genuine responses -/

/-- The bytes have the form of a protected response, with the MAC that belongs there at `n`. -/
def Genuine (key : Cipher.Key) (n : Counter) (w : Bytes) : Prop :=
  ∃ r : ProtectedResponse, r.Form w ∧ r.Authentic key n

end ProtectedResponse

open ProtectedResponse (Genuine)

variable {mac : Cipher.Key} {n : Counter} {w : Bytes}

/-- Without a genuine response, the MAC key and the counter decide the error by themselves. -/
theorem SessionKeys.exists_unprotect_of_not_genuine (h : ¬ Genuine mac n w) :
    ∃ e, (∀ enc, (SessionKeys.mk enc mac).unprotect n w = .error e) ∧
      ((∃ r : ProtectedResponse, r.Form w) → e = .integrity) ∧
      ((∀ r : ProtectedResponse, ¬ r.Form w) →
        ∃ reason ∈ ProtectedResponse.faults, e = .malformed reason) := by
  cases hparse : ProtectedResponse.parse w with
  | error reason =>
    refine ⟨.malformed reason, fun enc => ?_, ?_, fun _ =>
      ⟨reason, ProtectedResponse.mem_faults_of_parse hparse, rfl⟩⟩
    · unfold unprotect
      rw [hparse]
    · rintro ⟨r, form⟩
      rw [ProtectedResponse.parse_of_form form] at hparse
      cases hparse
  | ok r =>
    have form := ProtectedResponse.form_of_parse hparse
    have forged : ¬ r.Authentic mac n := fun authentic => h ⟨r, form, authentic⟩
    exact ⟨.integrity, fun _ => unprotect_of_not_authentic form forged, fun _ => rfl,
      fun hform => absurd form (hform r)⟩

theorem SessionKeys.genuine_of_ofData {enc : Cipher.Key} {e : MessagingError}
    (herror : (SessionKeys.mk enc mac).unprotect n w = .error e) (hdata : e.OfData) :
    Genuine mac n w := by
  by_contra h
  obtain ⟨e', herror', hforged, hmalformed⟩ := exists_unprotect_of_not_genuine h
  rw [herror' enc] at herror
  cases herror
  by_cases hform : ∃ r : ProtectedResponse, r.Form w
  · rw [hforged hform] at hdata
    cases hdata
  · obtain ⟨reason, hreason, rfl⟩ := hmalformed fun r form => hform ⟨r, form⟩
    exact ProtectedResponse.not_ofData_of_mem_faults hreason hdata

/-! ## Sessions -/

namespace Session

/-- **Forgeries learn nothing of the encryption key.** A response that is not genuine at the stepped
counter gets one error from all sessions with that MAC key: the fault of its form, or `integrity`
if it has none. An error that tells of the data is the answer to a genuine response. -/
theorem decrypt_forgery (mac : Cipher.Key) (n : Counter) (w : Bytes) :
    (¬ Genuine mac n.next w → ∃ e,
      (∀ enc, decrypt ⟨⟨enc, mac⟩, n⟩ w = (.error e, ⟨⟨enc, mac⟩, n.next⟩)) ∧
      ((∃ r : ProtectedResponse, r.Form w) → e = .integrity) ∧
      ((∀ r : ProtectedResponse, ¬ r.Form w) →
        ∃ reason ∈ ProtectedResponse.faults, e = .malformed reason)) ∧
    ∀ enc e, (decrypt ⟨⟨enc, mac⟩, n⟩ w).1 = .error e → e.OfData → Genuine mac n.next w := by
  refine ⟨fun h => ?_, fun _ _ => SessionKeys.genuine_of_ofData⟩
  obtain ⟨e, herror, hclass⟩ := SessionKeys.exists_unprotect_of_not_genuine h
  exact ⟨e, fun enc => Prod.ext (herror enc) rfl, hclass⟩

/-- A forgery whose cryptogram is no whole block and has no padding indicator: all that is said of
it is that it is forged. -/
theorem decrypt_forgery_cryptogram :
    ∃ w, ¬ Genuine default Counter.zero.next w ∧
      (∃ r : ProtectedResponse, r.Form w ∧ r.data = some ⟨.encryptedData, [0x02, 0x00]⟩) ∧
      ∀ enc, (decrypt ⟨⟨enc, default⟩, .zero⟩ w).1 = .error .integrity := by
  let objects : Bytes := [0x87, 0x02, 0x02, 0x00, 0x99, 0x02, 0x90, 0x00]
  let w : Bytes := objects ++ [0x8E, 0x08, 0, 0, 0, 0, 0, 0, 0, 0, 0x90, 0x00]
  let r : ProtectedResponse :=
    ⟨some ⟨.encryptedData, [0x02, 0x00]⟩, ⟨0x90, 0x00⟩, objects, List.replicate 8 0⟩
  have form : r.Form w := ProtectedResponse.form_of_parse rfl
  have forged : ¬ Genuine default Counter.zero.next w := by
    rintro ⟨r', form', authentic⟩
    obtain rfl : r' = r := Except.ok.inj <|
      (ProtectedResponse.parse_of_form form').symm.trans (ProtectedResponse.parse_of_form form)
    have : r.mac ≠ Mac.compute default (Counter.zero.next).block [objects] := by decide +kernel
    exact this authentic
  obtain ⟨e, herror, hforged, -⟩ := (decrypt_forgery default .zero w).1 forged
  refine ⟨w, forged, ⟨r, form, rfl⟩, fun enc => ?_⟩
  rw [herror enc, hforged ⟨r, form⟩]

/-- No response of the list is genuine when its turn comes. -/
def Forgeries (mac : Cipher.Key) : Counter → List Bytes → Prop
  | _, [] => True
  | n, w :: rest => ¬ Genuine mac n.next w ∧ Forgeries mac n.next rest

/-- A run of forgeries is answered alike under any two encryption keys. -/
theorem run_forgeries {forgeries : List Bytes} (h : Forgeries mac n forgeries)
    (enc enc' : Cipher.Key) :
    (run ⟨⟨enc, mac⟩, n⟩ (forgeries.map .decrypt)).1 =
      (run ⟨⟨enc', mac⟩, n⟩ (forgeries.map .decrypt)).1 := by
  induction forgeries generalizing n with
  | nil => rfl
  | cons w rest ih =>
    obtain ⟨hw, hrest⟩ := h
    obtain ⟨e, herror, -⟩ := SessionKeys.exists_unprotect_of_not_genuine hw
    have hanswer (enc : Cipher.Key) :
        (run ⟨⟨enc, mac⟩, n⟩ ((w :: rest).map .decrypt)).1 =
          .error e :: (run ⟨⟨enc, mac⟩, n.next⟩ (rest.map .decrypt)).1 := by
      show ((SessionKeys.mk enc mac).unprotect n.next w).map SessionReply.response :: _ = _
      rw [herror enc]
      rfl
    rw [hanswer enc, hanswer enc', ih hrest]

end Session

end SmartCard
