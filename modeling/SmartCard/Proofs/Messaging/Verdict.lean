import SmartCard.Messaging.Session
import SmartCard.Proofs.Messaging.Cryptogram
import SmartCard.Proofs.Messaging.ResponseForm

/-!
# What becomes of a protected response

`Verdict` is the table of outcomes: which byte strings are refused as malformed, as forged or for
their cryptogram, and what the others stand for. `outcome_decrypt_iff`: decryption follows the
table, line by line, and no other way.
-/

namespace SmartCard

/-- The answers of decryption, without the reason that a malformed response is given. -/
inductive Outcome
  | accepted (r : Response)
  | malformed
  | forged
  | undecipherable

def outcome : Except MessagingError Response → Outcome
  | .ok r => .accepted r
  | .error (.malformed _) => .malformed
  | .error .integrity => .forged
  | .error (.crypto _) => .undecipherable

namespace ProtectedResponse

/-- The MAC is the one of the authenticated bytes. -/
def Authentic (r : ProtectedResponse) (key : Cipher.Key) (n : Counter) : Prop :=
  r.mac = Mac.compute key n.block [r.authenticated]

theorem isAuthentic_iff {r : ProtectedResponse} {key : Cipher.Key} {n : Counter} :
    r.isAuthentic key n ↔ r.Authentic key n := by
  unfold isAuthentic Mac.verify Authentic
  rw [decide_eq_true_iff]
  exact eq_comm

end ProtectedResponse

/-- The table of outcomes, for a response `w` at the counter value `n`. -/
inductive Verdict (keys : SessionKeys) (n : Counter) (w : Bytes) : Outcome → Prop
  | malformed (h : ∀ r : ProtectedResponse, ¬ r.Form w) : Verdict keys n w .malformed
  | forged {r : ProtectedResponse} (form : r.Form w) (h : ¬ r.Authentic keys.mac n) :
      Verdict keys n w .forged
  | bare {r : ProtectedResponse} (form : r.Form w) (authentic : r.Authentic keys.mac n)
      (data : r.data = none) : Verdict keys n w (.accepted ⟨[], r.status⟩)
  | plain {r : ProtectedResponse} {value : Bytes} (form : r.Form w)
      (authentic : r.Authentic keys.mac n) (data : r.data = some ⟨.plainData, value⟩) :
      Verdict keys n w (.accepted ⟨value, r.status⟩)
  | indicator {r : ProtectedResponse} {value : Bytes} (form : r.Form w)
      (authentic : r.Authentic keys.mac n) (data : r.data = some ⟨.encryptedData, value⟩)
      (h : value.head? ≠ some paddingIndicator) : Verdict keys n w .malformed
  | partialBlock {r : ProtectedResponse} {cryptogram : Bytes} (form : r.Form w)
      (authentic : r.Authentic keys.mac n)
      (data : r.data = some ⟨.encryptedData, paddingIndicator :: cryptogram⟩)
      (h : cryptogram = [] ∨ cryptogram.length % 16 ≠ 0) : Verdict keys n w .undecipherable
  | padding {r : ProtectedResponse} {cryptogram : Bytes} (form : r.Form w)
      (authentic : r.Authentic keys.mac n)
      (data : r.data = some ⟨.encryptedData, paddingIndicator :: cryptogram⟩)
      (nonempty : cryptogram ≠ []) (whole : cryptogram.length % 16 = 0)
      (h : ∀ plain, cryptogram ≠ Cryptogram.encrypt keys.enc n.block plain) :
      Verdict keys n w .malformed
  | decrypted {r : ProtectedResponse} {plain : Bytes} (form : r.Form w)
      (authentic : r.Authentic keys.mac n)
      (data : r.data = some ⟨.encryptedData,
        paddingIndicator :: Cryptogram.encrypt keys.enc n.block plain⟩) :
      Verdict keys n w (.accepted ⟨plain, r.status⟩)

namespace SessionKeys

variable {keys : SessionKeys} {n : Counter} {w : Bytes} {r : ProtectedResponse}

/-! ## Unprotecting, by the form of the response -/

theorem unprotect_of_not_form (h : ∀ r : ProtectedResponse, ¬ r.Form w) :
    ∃ reason, keys.unprotect n w = .error (.malformed reason) := by
  unfold unprotect
  cases hparse : ProtectedResponse.parse w with
  | error reason => exact ⟨reason, rfl⟩
  | ok r => exact absurd (ProtectedResponse.form_of_parse hparse) (h r)

theorem unprotect_of_not_authentic (hform : r.Form w) (h : ¬ r.Authentic keys.mac n) :
    keys.unprotect n w = .error .integrity := by
  unfold unprotect
  rw [ProtectedResponse.parse_of_form hform]
  exact if_neg (ProtectedResponse.isAuthentic_iff.not.mpr h)

theorem unprotect_of_authentic (hform : r.Form w) (h : r.Authentic keys.mac n) :
    keys.unprotect n w = (r.payload keys.enc n).map (⟨·, r.status⟩) := by
  unfold unprotect
  rw [ProtectedResponse.parse_of_form hform]
  exact if_pos (ProtectedResponse.isAuthentic_iff.mpr h)

end SessionKeys

namespace ProtectedResponse

variable {key : Cipher.Key} {n : Counter} {r : ProtectedResponse}

/-! ## Payloads, by the data object -/

theorem payload_of_none (h : r.data = none) : r.payload key n = .ok [] := by
  unfold payload
  rw [h]

theorem payload_of_plain {value : Bytes} (h : r.data = some ⟨.plainData, value⟩) :
    r.payload key n = .ok value := by
  unfold payload
  rw [h]

theorem payload_of_indicator {value : Bytes} (h : r.data = some ⟨.encryptedData, value⟩)
    (hne : value.head? ≠ some paddingIndicator) :
    r.payload key n = .error (.malformed .unsupportedPaddingIndicator) := by
  unfold payload
  rw [h]
  cases value with
  | nil => rfl
  | cons first rest => exact if_neg fun e => hne (congrArg some e)

theorem payload_of_cryptogram {cryptogram : Bytes}
    (h : r.data = some ⟨.encryptedData, paddingIndicator :: cryptogram⟩) :
    r.payload key n = Cryptogram.decrypt key n.block cryptogram := by
  unfold payload
  rw [h]
  exact if_pos rfl

end ProtectedResponse

/-! ## The table is followed -/

theorem outcome_of_verdict {keys : SessionKeys} {n : Counter} {w : Bytes} {o : Outcome}
    (h : Verdict keys n w o) : outcome (keys.unprotect n w) = o := by
  cases h with
  | malformed h =>
    obtain ⟨reason, hreason⟩ := SessionKeys.unprotect_of_not_form h
    rw [hreason]
    rfl
  | forged form h =>
    rw [SessionKeys.unprotect_of_not_authentic form h]
    rfl
  | bare form authentic data =>
    rw [SessionKeys.unprotect_of_authentic form authentic, ProtectedResponse.payload_of_none data]
    rfl
  | plain form authentic data =>
    rw [SessionKeys.unprotect_of_authentic form authentic, ProtectedResponse.payload_of_plain data]
    rfl
  | indicator form authentic data h =>
    rw [SessionKeys.unprotect_of_authentic form authentic,
      ProtectedResponse.payload_of_indicator data h]
    rfl
  | partialBlock form authentic data h =>
    rw [SessionKeys.unprotect_of_authentic form authentic,
      ProtectedResponse.payload_of_cryptogram data, Cryptogram.decrypt_of_partial _ _ h]
    rfl
  | padding form authentic data nonempty whole h =>
    rw [SessionKeys.unprotect_of_authentic form authentic,
      ProtectedResponse.payload_of_cryptogram data,
      Cryptogram.decrypt_of_not_encrypted nonempty whole h]
    rfl
  | decrypted form authentic data =>
    rw [SessionKeys.unprotect_of_authentic form authentic,
      ProtectedResponse.payload_of_cryptogram data, Cryptogram.decrypt_encrypt]
    rfl

/-- An encrypted data object that is authentic has a line of the table. -/
theorem exists_verdict_of_encrypted {keys : SessionKeys} {n : Counter} {w value : Bytes}
    {r : ProtectedResponse} (form : r.Form w) (authentic : r.Authentic keys.mac n)
    (data : r.data = some ⟨.encryptedData, value⟩) : ∃ o, Verdict keys n w o := by
  by_cases hindicator : value.head? = some paddingIndicator
  · obtain ⟨cryptogram, rfl⟩ := List.head?_eq_some_iff.mp hindicator
    by_cases hpart : cryptogram = [] ∨ cryptogram.length % 16 ≠ 0
    · exact ⟨_, .partialBlock form authentic data hpart⟩
    · obtain ⟨hne, hwhole⟩ := not_or.mp hpart
      by_cases hplain : ∃ plain, cryptogram = Cryptogram.encrypt keys.enc n.block plain
      · obtain ⟨plain, rfl⟩ := hplain
        exact ⟨_, .decrypted form authentic data⟩
      · exact ⟨_, .padding form authentic data hne (by omega) fun plain h => hplain ⟨plain, h⟩⟩
  · exact ⟨_, .indicator form authentic data hindicator⟩

theorem exists_verdict (keys : SessionKeys) (n : Counter) (w : Bytes) :
    ∃ o, Verdict keys n w o := by
  by_cases hform : ∃ r : ProtectedResponse, r.Form w
  · obtain ⟨r, form⟩ := hform
    by_cases authentic : r.Authentic keys.mac n
    · rcases hdata : r.data with _ | ⟨tag, value⟩
      · exact ⟨_, .bare form authentic hdata⟩
      · obtain ⟨dataPart, -, -, -, -, hpart, -⟩ := id form
        rw [hdata] at hpart
        rcases hpart.1 with htag | htag
        · obtain rfl : tag = .plainData := htag
          exact ⟨_, .plain form authentic hdata⟩
        · obtain rfl : tag = .encryptedData := htag
          exact exists_verdict_of_encrypted form authentic hdata
    · exact ⟨_, .forged form authentic⟩
  · exact ⟨_, .malformed fun r form => hform ⟨r, form⟩⟩

/-- **Acceptance.** A session steps its counter, and then gives a response exactly the outcome that
the table has for it at the new value. -/
theorem outcome_decrypt_iff (keys : SessionKeys) (n : Counter) (w : Bytes) (o : Outcome) :
    ((Session.decrypt ⟨keys, n⟩ w).2 = ⟨keys, n.next⟩) ∧
      (outcome (Session.decrypt ⟨keys, n⟩ w).1 = o ↔ Verdict keys n.next w o) := by
  refine ⟨rfl, ?_, outcome_of_verdict⟩
  rintro rfl
  obtain ⟨o, h⟩ := exists_verdict keys n.next w
  have := outcome_of_verdict h
  show Verdict keys n.next w (outcome (keys.unprotect n.next w))
  rwa [this]

end SmartCard
