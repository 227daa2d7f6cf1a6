import SmartCard.Apdu.Response

/-!
# Responses on the wire

Parsing and encoding of responses undo each other: `parse_eq_ok_iff`. Only what has no room for a
status word is refused: `parse_eq_error_iff`.
-/

namespace SmartCard.Response

variable {bytes : Bytes} {r : Response}

theorem parse_encode (r : Response) : parse r.encode = .ok r := by
  have hlength : r.encode.length - 2 = r.payload.length := by
    unfold encode
    rw [List.length_append]
    rfl
  unfold parse
  rw [hlength, encode, List.drop_left, List.take_left]
  rfl

theorem encode_of_parse (h : parse bytes = .ok r) : r.encode = bytes := by
  unfold parse at h
  split at h
  next sw1 sw2 hstatus =>
    cases h
    show bytes.take (bytes.length - 2) ++ [sw1, sw2] = bytes
    rw [← hstatus]
    exact List.take_append_drop _ _
  next => cases h

theorem parse_eq_ok_iff : parse bytes = .ok r ↔ r.encode = bytes := by
  constructor
  · exact encode_of_parse
  · rintro rfl
    exact parse_encode r

/-- What has room for a status word is a response. -/
theorem exists_parse (h : 2 ≤ bytes.length) : ∃ r, parse bytes = .ok r := by
  have hlength : (bytes.drop (bytes.length - 2)).length = 2 := by
    rw [List.length_drop]
    omega
  unfold parse
  generalize bytes.drop (bytes.length - 2) = status at hlength ⊢
  obtain _ | ⟨sw1, _ | ⟨sw2, _ | ⟨b, rest⟩⟩⟩ := status
  · cases hlength
  · cases hlength
  · exact ⟨_, rfl⟩
  · cases hlength

theorem parse_error {e : ApduError} (h : parse bytes = .error e) :
    e = .responseLength bytes.length := by
  unfold parse at h
  split at h
  next => cases h
  next =>
    cases h
    rfl

theorem parse_eq_error_iff {e : ApduError} :
    parse bytes = .error e ↔ bytes.length < 2 ∧ e = .responseLength bytes.length := by
  constructor
  · intro h
    refine ⟨Nat.lt_of_not_le fun hlength => ?_, parse_error h⟩
    obtain ⟨r, hr⟩ := exists_parse hlength
    rw [h] at hr
    cases hr
  · rintro ⟨hlength, rfl⟩
    cases h : parse bytes with
    | error e => rw [parse_error h]
    | ok r =>
      have hencode : r.payload.length + 2 = bytes.length := by
        rw [← encode_of_parse h, encode, List.length_append]
        rfl
      omega

end SmartCard.Response
