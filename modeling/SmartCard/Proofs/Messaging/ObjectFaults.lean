import SmartCard.Proofs.Messaging.ObjectGrammar

/-!
# Byte strings that begin with no data object

`ObjectFault` says what is wrong with a byte string that does not begin with a spelling.
`decode_eq_error_iff`: decoding refuses exactly the byte strings with a fault, and names it.
-/

namespace SmartCard

/-- Why no length field stands in front. -/
inductive LengthFault : Bytes → Malformation → Prop
  | missing : LengthFault [] .truncatedLength
  | indefinite {rest : Bytes} : LengthFault (0x80 :: rest) .indefiniteLength
  | tooLong {first : UInt8} {rest : Bytes} (h : 0x80 + DataObject.maxLengthBytes < first.toNat) :
      LengthFault (first :: rest) .lengthFieldTooLong
  | truncated {first : UInt8} {rest : Bytes} (le : first.toNat ≤ 0x80 + DataObject.maxLengthBytes)
      (short : 0x80 + rest.length < first.toNat) : LengthFault (first :: rest) .truncatedLength

/-- Why no object stands in front. An unknown tag counts only if all the rest is there. -/
inductive ObjectFault : Bytes → Malformation → Prop
  | missing : ObjectFault [] .missingObject
  | length {tagByte : UInt8} {afterTag : Bytes} {reason : Malformation}
      (h : LengthFault afterTag reason) : ObjectFault (tagByte :: afterTag) reason
  | truncated {tagByte : UInt8} {field rest : Bytes} {n : Nat} (h : LengthField field n)
      (short : rest.length < n) : ObjectFault (tagByte :: field ++ rest) .truncatedValue
  | tag {tagByte : UInt8} {field rest : Bytes} {n : Nat} (h : LengthField field n)
      (le : n ≤ rest.length) (unknown : ∀ t : Tag, t.byte ≠ tagByte) :
      ObjectFault (tagByte :: field ++ rest) .unexpectedTag

theorem Tag.ofByte?_eq_none_iff {b : UInt8} : Tag.ofByte? b = none ↔ ∀ t : Tag, t.byte ≠ b := by
  rw [Option.eq_none_iff_forall_ne_some]
  exact forall_congr' fun t => not_congr Tag.ofByte?_eq_some_iff

namespace DataObject

variable {bs : Bytes} {reason : Malformation}

theorem readLength_eq_error_iff : readLength bs = .error reason ↔ LengthFault bs reason := by
  constructor
  · intro h
    obtain _ | ⟨first, rest⟩ := bs
    · cases h
      exact .missing
    · obtain hsmall | rfl | hlong := first_cases first
      · rw [readLength, if_pos hsmall] at h
        cases h
      · cases h
        exact .indefinite
      · rw [readLength_long hlong] at h
        split at h
        next htoo =>
          cases h
          exact .tooLong (by omega)
        next hmax =>
          split at h
          next hshort =>
            cases h
            exact .truncated (by omega) (by omega)
          next => cases h
  · intro h
    cases h with
    | missing => rfl
    | indefinite => rfl
    | @tooLong first rest htoo =>
      rw [readLength_long (by omega)]
      exact if_pos (by omega)
    | @truncated first rest le short =>
      rw [readLength_long (by omega), if_neg (by omega)]
      exact if_pos (by omega)

/-- **Refusal.** Decoding fails exactly if there is a fault, with this fault. -/
theorem decode_eq_error_iff : decode bs = .error reason ↔ ObjectFault bs reason := by
  constructor
  · intro h
    obtain _ | ⟨tagByte, afterTag⟩ := bs
    · cases h
      exact .missing
    · simp only [decode] at h
      split at h
      next hlength =>
        cases h
        exact .length (readLength_eq_error_iff.mp hlength)
      next n rest hlength =>
        obtain ⟨field, hfield, rfl⟩ := readLength_eq_ok_iff.mp hlength
        split at h
        next hshort =>
          cases h
          exact .truncated hfield hshort
        next hle =>
          split at h
          next hunknown =>
            cases h
            exact .tag hfield (Nat.le_of_not_lt hle) (Tag.ofByte?_eq_none_iff.mp hunknown)
          next => cases h
  · intro h
    cases h with
    | missing => rfl
    | length h => simp only [decode, readLength_eq_error_iff.mpr h]
    | @truncated tagByte field rest n h short =>
      have hread : readLength (field ++ rest) = .ok (n, rest) :=
        readLength_eq_ok_iff.mpr ⟨field, h, rfl⟩
      simp only [List.cons_append, decode, hread, if_pos short]
    | @tag tagByte field rest n h le unknown =>
      have hread : readLength (field ++ rest) = .ok (n, rest) :=
        readLength_eq_ok_iff.mpr ⟨field, h, rfl⟩
      simp only [List.cons_append, decode, hread, if_neg (Nat.not_lt.mpr le),
        Tag.ofByte?_eq_none_iff.mpr unknown]

end DataObject

end SmartCard
