import SmartCard.Messaging.DataObject
import SmartCard.Proofs.Bytes

/-!
# The grammar of data objects

A data object is spelled by its tag, a length field and its value. The length field need not be the
shortest one.

* `decode_eq_ok_iff`: decoding accepts exactly the byte strings that begin with a spelling, and
  leaves what follows it.
* `decode_encode_append`: encoding writes a spelling, so decoding reads back what was encoded.
* `Spelling.encode_prefix_iff`: no spelling is shorter than the encoding, and no other is as short.
-/

namespace SmartCard

/-! ## Length fields -/

/-- The byte strings that denote a length: one byte below `80`, or `81` to `84` and that many
big-endian bytes. -/
inductive LengthField : Bytes → Nat → Prop
  | short {first : UInt8} (small : first < 0x80) : LengthField [first] first.toNat
  | long {first : UInt8} {digits : Bytes} (counted : first.toNat = 0x80 + digits.length)
      (pos : 0 < digits.length) (le : digits.length ≤ DataObject.maxLengthBytes) :
      LengthField (first :: digits) (ofBigEndian digits)

theorem LengthField.length_pos {field : Bytes} {n : Nat} (h : LengthField field n) :
    0 < field.length := by
  cases h <;> simp

namespace DataObject

/-- The first byte of a length field is the length, or refused, or counts the bytes after it. -/
theorem first_cases (first : UInt8) : first < 0x80 ∨ first = 0x80 ∨ 0x80 < first.toNat := by
  have hiff : first = 0x80 ↔ first.toNat = 0x80 := UInt8.toNat_inj.symm
  rw [hiff]
  show first.toNat < 0x80 ∨ _
  omega

theorem readLength_long {first : UInt8} (h : 0x80 < first.toNat) (tail : Bytes) :
    readLength (first :: tail) =
      if maxLengthBytes < first.toNat - 0x80 then .error .lengthFieldTooLong
      else if tail.length < first.toNat - 0x80 then .error .truncatedLength
      else .ok (ofBigEndian (tail.take (first.toNat - 0x80)), tail.drop (first.toNat - 0x80)) := by
  have hsmall : ¬ first < 0x80 := by
    show ¬ first.toNat < 0x80
    omega
  have hindef : first ≠ 0x80 := by
    rintro rfl
    exact Nat.lt_irrefl _ h
  rw [readLength, if_neg hsmall, if_neg hindef]

/-- A long form that is read is one of the grammar. -/
theorem lengthField_long {first : UInt8} {tail : Bytes} (h : 0x80 < first.toNat)
    (hmax : first.toNat - 0x80 ≤ maxLengthBytes) (hlen : first.toNat - 0x80 ≤ tail.length) :
    LengthField (first :: tail.take (first.toNat - 0x80))
      (ofBigEndian (tail.take (first.toNat - 0x80))) := by
  have htake : (tail.take (first.toNat - 0x80)).length = first.toNat - 0x80 := by
    rw [List.length_take]
    omega
  refine .long ?_ ?_ ?_ <;> rw [htake] <;> omega

theorem readLength_eq_ok_iff {bs rest : Bytes} {n : Nat} :
    readLength bs = .ok (n, rest) ↔ ∃ field, LengthField field n ∧ bs = field ++ rest := by
  constructor
  · intro h
    obtain _ | ⟨first, tail⟩ := bs
    · cases h
    · obtain hsmall | rfl | hlong := first_cases first
      · rw [readLength, if_pos hsmall] at h
        cases h
        exact ⟨[first], .short hsmall, rfl⟩
      · cases h
      · rw [readLength_long hlong] at h
        split at h
        next => cases h
        next hmax =>
          split at h
          next => cases h
          next hlen =>
            simp only [Except.ok.injEq, Prod.mk.injEq] at h
            obtain ⟨rfl, rfl⟩ := h
            exact ⟨_, lengthField_long hlong (by omega) (by omega), by simp⟩
  · rintro ⟨field, hfield, rfl⟩
    cases hfield with
    | short hsmall => simp [readLength, hsmall]
    | @long first digits counted hpos hle =>
      have hwidth : first.toNat - 0x80 = digits.length := by omega
      rw [List.cons_append, readLength_long (by omega), hwidth, List.length_append,
        if_neg (by omega), if_neg (by omega), List.take_left, List.drop_left]

end DataObject

/-! ## Objects -/

theorem Tag.ofByte?_eq_some_iff {b : UInt8} {t : Tag} : Tag.ofByte? b = some t ↔ t.byte = b := by
  constructor
  · intro h
    have := List.find?_some h
    simpa using this
  · rintro rfl
    exact Tag.ofByte?_byte t

namespace DataObject

/-- A tag, any field for the length of the value, and the value. -/
def Spelling (o : DataObject) (bs : Bytes) : Prop :=
  ∃ field, LengthField field o.value.length ∧ bs = o.tag.byte :: field ++ o.value

theorem decode_eq_ok_iff {bs rest : Bytes} {o : DataObject} :
    decode bs = .ok (o, rest) ↔ ∃ front, o.Spelling front ∧ bs = front ++ rest := by
  constructor
  · intro h
    obtain _ | ⟨tagByte, afterTag⟩ := bs
    · cases h
    · simp only [decode] at h
      split at h
      next => cases h
      next length afterLength hread =>
        split at h
        next => cases h
        next hlen =>
          split at h
          next => cases h
          next tag htag =>
            cases h
            obtain ⟨field, hfield, rfl⟩ := readLength_eq_ok_iff.mp hread
            have htake : (afterLength.take length).length = length := by
              rw [List.length_take]
              omega
            refine ⟨tagByte :: field ++ afterLength.take length, ⟨field, ?_, ?_⟩, ?_⟩
            · rwa [htake]
            · rw [Tag.ofByte?_eq_some_iff.mp htag]
            · simp
  · rintro ⟨front, ⟨field, hfield, rfl⟩, rfl⟩
    have hread : readLength (field ++ (o.value ++ rest)) = .ok (o.value.length, o.value ++ rest) :=
      readLength_eq_ok_iff.mpr ⟨field, hfield, rfl⟩
    simp only [List.cons_append, List.append_assoc, decode, hread, Tag.ofByte?_byte]
    simp

/-- Only one object is spelled at the front of a byte string. -/
theorem Spelling.unique {o o' : DataObject} {front front' rest rest' : Bytes}
    (h : o.Spelling front) (h' : o'.Spelling front') (heq : front ++ rest = front' ++ rest') :
    o = o' ∧ front = front' ∧ rest = rest' := by
  have hd : decode (front ++ rest) = .ok (o, rest) := decode_eq_ok_iff.mpr ⟨front, h, rfl⟩
  have hd' : decode (front ++ rest) = .ok (o', rest') := decode_eq_ok_iff.mpr ⟨front', h', heq⟩
  rw [hd] at hd'
  cases hd'
  exact ⟨rfl, List.append_cancel_right heq, rfl⟩

theorem Spelling.length {o : DataObject} {bs : Bytes} (h : o.Spelling bs) :
    o.value.length + 2 ≤ bs.length := by
  obtain ⟨field, hfield, rfl⟩ := h
  have := hfield.length_pos
  simp
  omega

theorem Spelling.head? {o : DataObject} {bs : Bytes} (h : o.Spelling bs) (rest : Bytes) :
    (bs ++ rest).head? = some o.tag.byte := by
  obtain ⟨field, -, rfl⟩ := h
  rfl

/-! ## Encodings -/

theorem lt_pow_byteWidth (n : Nat) : n < 256 ^ byteWidth n := by
  unfold byteWidth
  by_cases h : n = 0
  · simp [h]
  · rw [if_neg h]
    calc n < 2 ^ (n.log2 + 1) := Nat.lt_log2_self
      _ ≤ 2 ^ (8 * (n.log2 / 8 + 1)) := Nat.pow_le_pow_right (by omega) (by omega)
      _ = 256 ^ (n.log2 / 8 + 1) := Nat.pow_mul 2 8 _

theorem byteWidth_le {n width : Nat} (h : n < 256 ^ width) : byteWidth n ≤ width := by
  unfold byteWidth
  by_cases h0 : n = 0
  · simp [h0]
  · rw [if_neg h0]
    have hlog : n.log2 < 8 * width := by
      rw [Nat.log2_lt h0, Nat.pow_mul]
      exact h
    omega

theorem byteWidth_pos {n : Nat} (h : n ≠ 0) : 0 < byteWidth n := by
  rw [byteWidth, if_neg h]
  omega

theorem lengthField_spells {n : Nat} (h : n < 2 ^ 32) : LengthField (lengthField n) n := by
  unfold lengthField
  by_cases hsmall : n < 0x80
  · rw [if_pos hsmall]
    have hn : (UInt8.ofNat n).toNat = n := by
      rw [UInt8.toNat_ofNat']
      omega
    have hlt : UInt8.ofNat n < 0x80 := by
      show (UInt8.ofNat n).toNat < 0x80
      omega
    simpa only [hn] using LengthField.short hlt
  · rw [if_neg hsmall]
    have hle : byteWidth n ≤ 4 := byteWidth_le h
    have hpos : 0 < byteWidth n := byteWidth_pos (by omega)
    have hfirst : (UInt8.ofNat (0x80 + byteWidth n)).toNat = 0x80 + byteWidth n := by
      rw [UInt8.toNat_ofNat']
      omega
    have hlong : LengthField (UInt8.ofNat (0x80 + byteWidth n) :: bigEndian (byteWidth n) n)
        (ofBigEndian (bigEndian (byteWidth n) n)) :=
      .long (by rw [hfirst, length_bigEndian]) (by rwa [length_bigEndian])
        (by rwa [length_bigEndian])
    rwa [ofBigEndian_bigEndian (lt_pow_byteWidth n)] at hlong

theorem spelling_encode {o : DataObject} (h : o.value.length < 2 ^ 32) : o.Spelling o.encode :=
  ⟨lengthField o.value.length, lengthField_spells h, rfl⟩

theorem decode_encode_append {o : DataObject} (h : o.value.length < 2 ^ 32) (rest : Bytes) :
    decode (o.encode ++ rest) = .ok (o, rest) :=
  decode_eq_ok_iff.mpr ⟨o.encode, spelling_encode h, rfl⟩

theorem length_encode (o : DataObject) : o.encode.length = o.encodedLength := by
  unfold encode encodedLength lengthField
  by_cases h : o.value.length < 0x80 <;> simp [h] <;> omega

/-- The bytes around a value are two at least, and four at most around one below 64 KiB. -/
theorem length_encode_bounds (o : DataObject) :
    o.value.length + 2 ≤ o.encode.length ∧
      (o.value.length < 65536 → o.encode.length ≤ o.value.length + 4) := by
  rw [length_encode, encodedLength]
  by_cases h : o.value.length < 0x80
  · rw [if_pos h]
    omega
  · rw [if_neg h]
    exact ⟨by omega, fun hlt => by have := @byteWidth_le o.value.length 2 hlt; omega⟩

@[simp] theorem encodeAll_nil : encodeAll [] = [] := rfl

@[simp] theorem encodeAll_cons (o : DataObject) (rest : List DataObject) :
    encodeAll (o :: rest) = o.encode ++ encodeAll rest := rfl

@[simp] theorem encodeAll_append (front back : List DataObject) :
    encodeAll (front ++ back) = encodeAll front ++ encodeAll back :=
  List.flatMap_append

end DataObject

/-! ## The shortest spelling -/

open DataObject in
theorem LengthField.value_lt {field : Bytes} {n : Nat} (h : LengthField field n) : n < 2 ^ 32 := by
  cases h with
  | @short first small =>
    have := first.toNat_lt
    omega
  | @long first digits counted pos le =>
    calc ofBigEndian digits < 256 ^ digits.length := ofBigEndian_lt digits
      _ ≤ 256 ^ maxLengthBytes := Nat.pow_le_pow_right (by decide) le

open DataObject in
/-- No length field is shorter than the one that is written. -/
theorem LengthField.length_le {field : Bytes} {n : Nat} (h : LengthField field n) :
    (lengthField n).length ≤ field.length := by
  cases h with
  | @short first small =>
    have hsmall : first.toNat < 0x80 := small
    rw [lengthField, if_pos hsmall]
    exact Nat.le_refl _
  | @long first digits counted pos le =>
    unfold lengthField
    split
    · simp
    · have := byteWidth_le (ofBigEndian_lt digits)
      simpa using this

open DataObject in
/-- The length field that is written is the only one of its length. -/
theorem LengthField.eq_of_length {field : Bytes} {n : Nat} (h : LengthField field n)
    (hlength : field.length = (lengthField n).length) : field = lengthField n := by
  cases h with
  | @short first small =>
    have hsmall : first.toNat < 0x80 := small
    rw [lengthField, if_pos hsmall, UInt8.ofNat_toNat]
  | @long first digits counted pos le =>
    unfold lengthField at hlength ⊢
    split at hlength
    next =>
      rw [List.length_cons, List.length_singleton] at hlength
      omega
    next hsmall =>
      have hwidth : byteWidth (ofBigEndian digits) = digits.length := by simpa using hlength.symm
      rw [if_neg hsmall, hwidth, bigEndian_ofBigEndian, ← counted, UInt8.ofNat_toNat]

namespace DataObject.Spelling

variable {o : DataObject} {front : Bytes} (h : o.Spelling front)

include h

theorem value_lt : o.value.length < 2 ^ 32 := by
  obtain ⟨field, hfield, -⟩ := h
  exact hfield.value_lt

theorem encodedLength_le : o.encodedLength ≤ front.length := by
  rw [← length_encode]
  obtain ⟨field, hfield, rfl⟩ := h
  have := hfield.length_le
  simp only [encode, List.length_append, List.length_cons]
  omega

theorem eq_encode_iff : front = o.encode ↔ front.length = o.encodedLength := by
  rw [← length_encode]
  constructor
  · intro heq
    rw [heq]
  · intro hlength
    obtain ⟨field, hfield, rfl⟩ := h
    have hfields : field.length = (lengthField o.value.length).length := by
      simp only [encode, List.length_append, List.length_cons] at hlength
      omega
    rw [hfield.eq_of_length hfields, encode]

/-- A byte string that begins with a spelling begins with the encoding only if these are the same. -/
theorem encode_prefix_iff (rest : Bytes) :
    o.encode <+: front ++ rest ↔ front.length = o.encodedLength := by
  rw [← h.eq_encode_iff]
  constructor
  · rintro ⟨rest', heq⟩
    exact (h.unique (spelling_encode h.value_lt) heq.symm).2.1
  · intro heq
    rw [← heq]
    exact List.prefix_append front rest

end DataObject.Spelling

end SmartCard
