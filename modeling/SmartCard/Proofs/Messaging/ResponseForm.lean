import Mathlib.Data.List.Basic
import SmartCard.Messaging.Protection
import SmartCard.Proofs.Messaging.ObjectGrammar

/-!
# The form of protected responses

A well-formed protected response is an optional data object, a status object, a MAC object and two
bytes more. `parse_eq_ok_iff`: the parser accepts exactly these, and takes them apart in the only
possible way.
-/

namespace SmartCard

@[simp] theorem Mac.length_compute (key : Cipher.Key) (counter : Cipher.Block) (parts : List Bytes) :
    (Mac.compute key counter parts).length = Mac.macLength := by
  rw [Mac.compute, List.length_take, Cipher.Block.length_toBytes]
  rfl

namespace ProtectedResponse

/-- An optional data object, plain or encrypted. -/
def DataForm : Option DataObject → Bytes → Prop
  | none, bs => bs = []
  | some o, bs => (o.tag = .plainData ∨ o.tag = .encryptedData) ∧ o.Spelling bs

/-- The byte strings that spell the parts of `r`. -/
def Form (r : ProtectedResponse) (w : Bytes) : Prop :=
  ∃ dataPart statusPart macPart x y,
    DataForm r.data dataPart ∧
    DataObject.Spelling ⟨.status, r.status.toBytes⟩ statusPart ∧
    r.authenticated = dataPart ++ statusPart ∧
    DataObject.Spelling ⟨.mac, r.mac⟩ macPart ∧ r.mac.length = Mac.macLength ∧
    w = r.authenticated ++ macPart ++ [x, y]

/-! ## The objects, one by one -/

theorem readData_append {data : Option DataObject} {dataPart : Bytes} (h : DataForm data dataPart)
    {status : DataObject} {statusPart : Bytes} (htag : status.tag = .status)
    (hstatus : status.Spelling statusPart) (rest : Bytes) :
    readData (dataPart ++ (statusPart ++ rest)) = .ok (data, statusPart ++ rest) := by
  cases data with
  | none =>
    obtain rfl : dataPart = [] := h
    unfold readData
    rw [List.nil_append, hstatus.head? rest, Option.bind_some, Tag.ofByte?_byte, htag]
  | some o =>
    obtain ⟨ho, hspell⟩ := h
    have hdecode : DataObject.decode (dataPart ++ (statusPart ++ rest)) =
        .ok (o, statusPart ++ rest) := DataObject.decode_eq_ok_iff.mpr ⟨dataPart, hspell, rfl⟩
    unfold readData
    rw [hspell.head?, Option.bind_some, Tag.ofByte?_byte, hdecode]
    rcases ho with ho | ho <;> rw [ho] <;> rfl

theorem exists_of_readData {bs rest : Bytes} {data : Option DataObject}
    (h : readData bs = .ok (data, rest)) : ∃ dataPart, DataForm data dataPart ∧ bs = dataPart ++ rest := by
  have announced {t : Tag} (ht : t = .plainData ∨ t = .encryptedData)
      (hhead : bs.head?.bind Tag.ofByte? = some t)
      (h : (DataObject.decode bs).map (fun read => (some read.1, read.2)) = .ok (data, rest)) :
      ∃ dataPart, DataForm data dataPart ∧ bs = dataPart ++ rest := by
    cases hdecode : DataObject.decode bs with
    | error e =>
      rw [hdecode] at h
      cases h
    | ok read =>
      obtain ⟨o, after⟩ := read
      rw [hdecode] at h
      cases h
      obtain ⟨front, hspell, rfl⟩ := DataObject.decode_eq_ok_iff.mp hdecode
      rw [hspell.head?, Option.bind_some, Tag.ofByte?_byte] at hhead
      cases hhead
      exact ⟨front, ⟨ht, hspell⟩, rfl⟩
  unfold readData at h
  split at h
  next hhead => exact announced (.inl rfl) hhead h
  next hhead => exact announced (.inr rfl) hhead h
  next =>
    cases h
    exact ⟨[], rfl, rfl⟩

theorem readStatus_eq_ok_iff {bs rest : Bytes} {status : StatusWord} :
    readStatus bs = .ok (status, rest) ↔
      ∃ front, DataObject.Spelling ⟨.status, status.toBytes⟩ front ∧ bs = front ++ rest := by
  rw [← DataObject.decode_eq_ok_iff]
  unfold readStatus
  constructor
  · intro h
    split at h
    next => cases h
    next hdecode =>
      cases h
      exact hdecode
    next => cases h
    next => cases h
  · intro h
    rw [h]
    rfl

theorem readMac_eq_ok_iff {bs rest mac : Bytes} :
    readMac bs = .ok (mac, rest) ↔
      mac.length = Mac.macLength ∧
        ∃ front, DataObject.Spelling ⟨.mac, mac⟩ front ∧ bs = front ++ rest := by
  rw [← DataObject.decode_eq_ok_iff]
  unfold readMac
  constructor
  · intro h
    split at h
    next => cases h
    next hdecode =>
      split at h
      next hlen =>
        cases h
        exact ⟨hlen, hdecode⟩
      next => cases h
    next => cases h
  · rintro ⟨hlen, h⟩
    rw [h]
    simp [hlen]

/-! ## The whole response -/

/-- What an accepted parse has read, step by step. -/
theorem parse_eq_ok_iff_reads {r : ProtectedResponse} {w : Bytes} :
    parse w = .ok r ↔
      minLength ≤ w.length ∧
        ∃ afterData afterStatus trailer,
          readData w = .ok (r.data, afterData) ∧
          readStatus afterData = .ok (r.status, afterStatus) ∧
          readMac afterStatus = .ok (r.mac, trailer) ∧ trailer.length = 2 ∧
          r.authenticated = w.take (w.length - afterStatus.length) := by
  unfold parse
  simp only [bind, Except.bind, throw, throwThe, MonadExceptOf.throw, pure, Except.pure]
  constructor
  · intro h
    split at h
    next => cases h
    next hlen =>
      split at h
      next => cases h
      next read hdata =>
        split at h
        next => cases h
        next read' hstatus =>
          split at h
          next => cases h
          next read'' hmac =>
            split at h
            next => cases h
            next htrailer =>
              cases h
              exact ⟨by omega, read.2, read'.2, read''.2, hdata, hstatus, hmac, by omega, rfl⟩
  · rintro ⟨hlen, afterData, afterStatus, trailer, hdata, hstatus, hmac, htrailer, hauth⟩
    rw [if_neg (by omega), hdata]
    simp only [hstatus, hmac, htrailer, ← hauth]
    rfl

theorem Form.minLength_le {r : ProtectedResponse} {w : Bytes} (h : r.Form w) :
    minLength ≤ w.length := by
  obtain ⟨dataPart, statusPart, macPart, x, y, -, hstatus, hauth, hmac, hlen, rfl⟩ := h
  have h1 := hstatus.length
  have h2 := hmac.length
  rw [hauth]
  simp only [List.length_append, List.length_cons, List.length_nil, minLength]
  simp only [StatusWord.toBytes, List.length_cons, List.length_nil] at h1
  simp only [hlen, Mac.macLength] at h2
  omega

theorem parse_of_form {r : ProtectedResponse} {w : Bytes} (h : r.Form w) : parse w = .ok r := by
  have hmin := h.minLength_le
  obtain ⟨dataPart, statusPart, macPart, x, y, hdata, hstatus, hauth, hmac, hlen, rfl⟩ := h
  have hbytes : r.authenticated ++ macPart ++ [x, y] =
      dataPart ++ (statusPart ++ (macPart ++ [x, y])) := by simp [hauth]
  refine parse_eq_ok_iff_reads.mpr ⟨hmin, statusPart ++ (macPart ++ [x, y]), macPart ++ [x, y],
    [x, y], ?_, ?_, ?_, rfl, ?_⟩
  · rw [hbytes]
    exact readData_append hdata rfl hstatus _
  · exact readStatus_eq_ok_iff.mpr ⟨statusPart, hstatus, rfl⟩
  · exact readMac_eq_ok_iff.mpr ⟨hlen, macPart, hmac, rfl⟩
  · rw [List.append_assoc, List.length_append, Nat.add_sub_cancel, List.take_left]

theorem form_of_parse {r : ProtectedResponse} {w : Bytes} (h : parse w = .ok r) : r.Form w := by
  obtain ⟨-, afterData, afterStatus, trailer, hdata, hstatus, hmac, htrailer, hauth⟩ :=
    parse_eq_ok_iff_reads.mp h
  obtain ⟨dataPart, hdataPart, rfl⟩ := exists_of_readData hdata
  obtain ⟨statusPart, hstatusPart, rfl⟩ := readStatus_eq_ok_iff.mp hstatus
  obtain ⟨hlen, macPart, hmacPart, rfl⟩ := readMac_eq_ok_iff.mp hmac
  obtain ⟨x, y, rfl⟩ := List.length_eq_two.mp htrailer
  have hauth' : r.authenticated = dataPart ++ statusPart := by
    rw [hauth, ← List.append_assoc, List.length_append, Nat.add_sub_cancel, List.take_left]
  exact ⟨dataPart, statusPart, macPart, x, y, hdataPart, hstatusPart, hauth', hmacPart, hlen,
    by simp [hauth']⟩

theorem parse_eq_ok_iff {r : ProtectedResponse} {w : Bytes} : parse w = .ok r ↔ r.Form w :=
  ⟨form_of_parse, parse_of_form⟩

end ProtectedResponse

end SmartCard
