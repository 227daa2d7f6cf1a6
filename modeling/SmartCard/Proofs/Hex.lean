import SmartCard.Hex.Reader

/-!
# Hexadecimal text

`exact_reading`: the texts that can be read are spellings in digits of either case, separators and
one mark apart; all others have a fault, which is told. `read_print`: what is printed is read back.
`head?_of_read`: no text that can be read starts with a hyphen, so none is ever taken for an option.
-/

namespace SmartCard

/-! ## Results with another error -/

section

variable {ε ε' α : Type} {result : Except ε α} {f : ε → ε'}

theorem mapError_eq_ok_iff {a : α} : result.mapError f = .ok a ↔ result = .ok a := by
  cases result with
  | ok b => exact ⟨fun h => congrArg _ (Except.ok.inj h), fun h => congrArg _ (Except.ok.inj h)⟩
  | error e => exact ⟨nofun, nofun⟩

theorem mapError_eq_error_iff {e' : ε'} :
    result.mapError f = .error e' ↔ ∃ e, result = .error e ∧ f e = e' := by
  cases result with
  | ok b => exact ⟨nofun, fun ⟨_, h, _⟩ => nomatch h⟩
  | error e =>
    constructor
    · intro h
      exact ⟨e, rfl, Except.error.inj h⟩
    · rintro ⟨_, h, rfl⟩
      exact congrArg (fun e => Except.error (f e)) (Except.error.inj h)

end

namespace Hex

/-! ## Digits -/

/-- The character is the digit for `n`, in either case. -/
structure IsDigit (c : Char) (n : Nat) : Prop where
  lt : n < 16
  spelt : c = digit n ∨ c = (digit n).toLower

instance (c : Char) (n : Nat) : Decidable (IsDigit c n) :=
  decidable_of_iff (n < 16 ∧ (c = digit n ∨ c = (digit n).toLower))
    ⟨fun ⟨hlt, hspelt⟩ => ⟨hlt, hspelt⟩, fun ⟨hlt, hspelt⟩ => ⟨hlt, hspelt⟩⟩

/-- What the reader makes of a digit. -/
structure Legible (c : Char) (n : Nat) : Prop where
  encoded : String.utf8EncodeChar c = [.ofNat c.toNat]
  value : value? (.ofNat c.toNat) = some (.ofNat n)
  kept : isSeparator c = false
  unmarked : c ≠ 'x'

instance (c : Char) (n : Nat) : Decidable (Legible c n) :=
  decidable_of_iff
    (String.utf8EncodeChar c = [.ofNat c.toNat] ∧ value? (.ofNat c.toNat) = some (.ofNat n) ∧
      isSeparator c = false ∧ c ≠ 'x')
    ⟨fun ⟨he, hv, hk, hu⟩ => ⟨he, hv, hk, hu⟩, fun ⟨he, hv, hk, hu⟩ => ⟨he, hv, hk, hu⟩⟩

theorem IsDigit.legible {c : Char} {n : Nat} (h : IsDigit c n) : Legible c n := by
  have hall : ∀ n : Fin 16, Legible (digit n) n ∧ Legible (digit n).toLower n := by
    decide +kernel
  obtain ⟨hupper, hlower⟩ := hall ⟨n, h.lt⟩
  obtain rfl | rfl := h.spelt
  · exact hupper
  · exact hlower

theorem isDigit_of_value? {b v : UInt8} (h : value? b = some v) :
    IsDigit (Char.ofNat b.toNat) v.toNat := by
  have hall : ∀ i : Fin 256,
      (value? (.ofNat i)).all fun v => IsDigit (Char.ofNat i) v.toNat := by decide +kernel
  have hb := hall ⟨b.toNat, b.toNat_lt⟩
  rw [UInt8.ofNat_toNat, h] at hb
  exact of_decide_eq_true hb

/-- The bytes that have a value are the codes of the digits. -/
theorem value?_eq_none_iff {b : UInt8} :
    value? b = none ↔ ¬ ∃ n, IsDigit (Char.ofNat b.toNat) n := by
  have hvalid : b.toNat.isValidChar := .inl (Nat.lt_trans b.toNat_lt (by decide))
  have hcode : (Char.ofNat b.toNat).toNat = b.toNat := by
    rw [Char.ofNat, dif_pos hvalid]
    rfl
  constructor
  · rintro h ⟨n, hn⟩
    have hvalue := hn.legible.value
    rw [hcode, UInt8.ofNat_toNat, h] at hvalue
    cases hvalue
  · intro h
    cases hvalue : value? b with
    | none => rfl
    | some v => exact absurd ⟨_, isDigit_of_value? hvalue⟩ h

/-! ## Characters in UTF-8 -/

/-- The UTF-8 form of some characters. -/
def utf8 (cs : List Char) : Bytes := cs.flatMap String.utf8EncodeChar

/-- No byte of a longer form is the code of an ASCII character. -/
theorem le_of_mem_utf8EncodeChar {c : Char} {b : UInt8} (h : 0x80 ≤ c.toNat)
    (hb : b ∈ String.utf8EncodeChar c) : 0x80 ≤ b.toNat := by
  have hlong : ¬ c.val.toNat ≤ 0x7F := Nat.not_le.mpr h
  simp only [String.utf8EncodeChar, if_neg hlong] at hb
  split at hb
  next =>
    simp only [List.mem_cons, List.not_mem_nil, or_false] at hb
    obtain rfl | rfl := hb <;> rw [UInt8.toNat_ofNat'] <;> omega
  next =>
    split at hb <;> simp only [List.mem_cons, List.not_mem_nil, or_false] at hb
    · obtain rfl | rfl | rfl := hb <;> rw [UInt8.toNat_ofNat'] <;> omega
    · obtain rfl | rfl | rfl | rfl := hb <;> rw [UInt8.toNat_ofNat'] <;> omega

theorem value?_of_le {b : UInt8} (h : 0x80 ≤ b.toNat) : value? b = none := by
  have hall : ∀ i : Fin 256, 0x80 ≤ i.val → value? (.ofNat i) = none := by decide +kernel
  simpa using hall ⟨b.toNat, b.toNat_lt⟩ h

/-- A character that has the code of a digit among its bytes is this digit. -/
theorem isDigit_of_mem {c : Char} {b v : UInt8} (hb : b ∈ String.utf8EncodeChar c)
    (hv : value? b = some v) : IsDigit c v.toNat := by
  by_cases h : 0x80 ≤ c.toNat
  · rw [value?_of_le (le_of_mem_utf8EncodeChar h hb)] at hv
    cases hv
  · have hascii : String.utf8EncodeChar c = [.ofNat c.toNat] :=
      if_pos (Nat.le_of_lt_succ (Nat.lt_of_not_le h))
    rw [hascii, List.mem_singleton] at hb
    have hcode : b.toNat = c.toNat := by
      rw [hb, UInt8.toNat_ofNat']
      omega
    have hdigit := isDigit_of_value? hv
    rwa [hcode, Char.ofNat_toNat] at hdigit

theorem exists_mem_utf8EncodeChar (c : Char) : ∃ b, b ∈ String.utf8EncodeChar c := by
  apply List.exists_mem_of_length_pos
  rw [String.length_utf8EncodeChar]
  exact c.utf8Size_pos

/-! ## Spellings -/

/-- The digits spell the bytes, two digits each, the higher one first. -/
inductive Spells : List Char → Bytes → Prop
  | nil : Spells [] []
  | cons {hi lo : Char} {h l : Nat} {cs : List Char} {bs : Bytes} (high : IsDigit hi h)
      (low : IsDigit lo l) (rest : Spells cs bs) :
      Spells (hi :: lo :: cs) (.ofNat (h * 16 + l) :: bs)

theorem Spells.digits {cs : List Char} {bs : Bytes} (h : Spells cs bs) :
    ∀ c ∈ cs, ∃ n, IsDigit c n := by
  induction h with
  | nil => simp
  | cons high low rest ih => simpa using ⟨⟨_, high⟩, ⟨_, low⟩, ih⟩

theorem Spells.even {cs : List Char} {bs : Bytes} (h : Spells cs bs) : cs.length % 2 = 0 := by
  induction h with
  | nil => rfl
  | cons high low rest ih =>
    rw [List.length_cons, List.length_cons]
    omega

/-- The recursion takes two characters at a time, as the spelling does. -/
theorem exists_spells : ∀ {cs : List Char}, (∀ c ∈ cs, ∃ n, IsDigit c n) → cs.length % 2 = 0 →
    ∃ bs, Spells cs bs
  | [], _, _ => ⟨[], .nil⟩
  | [_], _, heven => absurd heven (by simp)
  | hi :: lo :: cs, hdigits, heven => by
    obtain ⟨h, high⟩ := hdigits hi (by simp)
    obtain ⟨l, low⟩ := hdigits lo (by simp)
    have hrest : ∀ c ∈ cs, ∃ n, IsDigit c n := fun c hc => hdigits c (by simp [hc])
    rw [List.length_cons, List.length_cons] at heven
    obtain ⟨bs, rest⟩ := exists_spells hrest (by omega)
    exact ⟨_, .cons high low rest⟩

theorem exists_spells_iff {cs : List Char} :
    (∃ bs, Spells cs bs) ↔ (∀ c ∈ cs, ∃ n, IsDigit c n) ∧ cs.length % 2 = 0 := by
  constructor
  · rintro ⟨bs, h⟩
    exact ⟨h.digits, h.even⟩
  · rintro ⟨hdigits, heven⟩
    exact exists_spells hdigits heven

/-! ## Reading codes -/

theorem mapM_value?_eq_none_iff {codes : Bytes} :
    codes.mapM value? = none ↔ ∃ b ∈ codes, value? b = none := by
  induction codes with
  | nil => simp
  | cons b rest ih =>
    rw [List.mapM_cons]
    cases hb : value? b with
    | none => simp [hb]
    | some v =>
      cases hrest : rest.mapM value? with
      | none => simpa [hb] using ih.mp hrest
      | some values =>
        have hnot : ¬ ∃ b ∈ rest, value? b = none := by
          rw [← ih, hrest]
          simp
        simpa [hb] using hnot

theorem length_utf8_of_digits {cs : List Char} (h : ∀ c ∈ cs, ∃ n, IsDigit c n) :
    (utf8 cs).length = cs.length := by
  induction cs with
  | nil => rfl
  | cons c rest ih =>
    obtain ⟨n, hn⟩ := h c List.mem_cons_self
    have hrest := ih fun c hc => h c (List.mem_cons_of_mem _ hc)
    show (String.utf8EncodeChar c ++ utf8 rest).length = _
    rw [hn.legible.encoded, List.length_append, hrest]
    exact Nat.add_comm 1 rest.length

theorem Spells.values {cs : List Char} {bs : Bytes} (h : Spells cs bs) :
    ∃ values, (utf8 cs).mapM value? = some values ∧ joinPairs values = bs := by
  induction h with
  | nil => exact ⟨[], rfl, rfl⟩
  | @cons hi lo h l cs bs high low rest ih =>
    obtain ⟨values, hvalues, hjoin⟩ := ih
    have hutf8 : utf8 (hi :: lo :: cs) = .ofNat hi.toNat :: .ofNat lo.toNat :: utf8 cs := by
      simp [utf8, high.legible.encoded, low.legible.encoded]
    refine ⟨.ofNat h :: .ofNat l :: values, ?_, ?_⟩
    · rw [hutf8, List.mapM_cons, List.mapM_cons, high.legible.value, low.legible.value, hvalues]
      rfl
    · rw [joinPairs, hjoin, UInt8.ofNat_add, UInt8.ofNat_mul]
      rfl

theorem Spells.readCodes {cs : List Char} {bs : Bytes} (h : Spells cs bs) :
    readCodes (utf8 cs) = .ok bs := by
  obtain ⟨values, hvalues, hjoin⟩ := h.values
  have hlength := length_utf8_of_digits h.digits
  have heven := h.even
  unfold Hex.readCodes
  rw [if_neg (by omega), hvalues]
  exact congrArg Except.ok hjoin

/-- What is read has no code without a value, so all its characters are digits. -/
theorem readCodes_utf8_eq_ok_iff {cs : List Char} {bs : Bytes} :
    readCodes (utf8 cs) = .ok bs ↔ Spells cs bs := by
  refine ⟨fun h => ?_, fun h => h.readCodes⟩
  have hcodes : (utf8 cs).mapM value? ≠ none ∧ (utf8 cs).length % 2 = 0 := by
    unfold readCodes at h
    split at h
    next => cases h
    next heven =>
      refine ⟨fun hnone => ?_, by omega⟩
      rw [hnone] at h
      cases h
  have hdigits : ∀ c ∈ cs, ∃ n, IsDigit c n := by
    intro c hc
    obtain ⟨b, hb⟩ := exists_mem_utf8EncodeChar c
    cases hv : value? b with
    | none =>
      have hmem : b ∈ utf8 cs := List.mem_flatMap.mpr ⟨c, hc, hb⟩
      exact absurd (mapM_value?_eq_none_iff.mpr ⟨b, hmem, hv⟩) hcodes.1
    | some v => exact ⟨_, isDigit_of_mem hb hv⟩
  have heven : cs.length % 2 = 0 := length_utf8_of_digits hdigits ▸ hcodes.2
  obtain ⟨bs', hspells⟩ := exists_spells hdigits heven
  rw [hspells.readCodes] at h
  cases h
  exact hspells

/-- What is wrong with codes that cannot be read. An odd count of them goes before all else. -/
inductive CodeFault (codes : Bytes) : HexFault → Prop
  | odd (h : codes.length % 2 = 1) : CodeFault codes .oddLength
  | bad {front back : Bytes} {byte : UInt8} (even : codes.length % 2 = 0)
      (heq : codes = front ++ byte :: back)
      (first : ∀ b ∈ front, ∃ n, IsDigit (Char.ofNat b.toNat) n)
      (h : ¬ ∃ n, IsDigit (Char.ofNat byte.toNat) n) :
      CodeFault codes (.badDigit byte front.length)

theorem exists_first_bad {codes : Bytes} (h : ∃ b ∈ codes, value? b = none) :
    ∃ front byte back, codes = front ++ byte :: back ∧ (∀ b ∈ front, value? b ≠ none) ∧
      value? byte = none := by
  induction codes with
  | nil => simp at h
  | cons b rest ih =>
    by_cases hb : value? b = none
    · exact ⟨[], b, rest, rfl, by simp, hb⟩
    · have hrest : ∃ b ∈ rest, value? b = none := by simpa [hb] using h
      obtain ⟨front, byte, back, rfl, hfront, hbyte⟩ := ih hrest
      exact ⟨b :: front, byte, back, rfl, by simpa [hb] using hfront, hbyte⟩

theorem firstBad_append {front back : Bytes} {byte : UInt8} (hfront : ∀ b ∈ front, value? b ≠ none)
    (h : value? byte = none) : firstBad (front ++ byte :: back) = .badDigit byte front.length := by
  have hnone : front.findIdx (fun c => (value? c).isNone) = front.length :=
    List.findIdx_eq_length_of_false fun b hb => by
      simpa [Option.isSome_iff_ne_none] using hfront b hb
  have hindex : (front ++ byte :: back).findIdx (fun c => (value? c).isNone) = front.length := by
    rw [List.findIdx_append, hnone, if_neg (Nat.lt_irrefl _), List.findIdx_cons, h]
    exact Nat.zero_add _
  unfold firstBad
  rw [hindex]
  simp

theorem readCodes_eq_error_iff {codes : Bytes} {fault : HexFault} :
    readCodes codes = .error fault ↔ CodeFault codes fault := by
  have hdigit (b : UInt8) : (∃ n, IsDigit (Char.ofNat b.toNat) n) ↔ value? b ≠ none := by
    rw [Ne, value?_eq_none_iff, Classical.not_not]
  constructor
  · intro h
    unfold readCodes at h
    split at h
    next hodd =>
      cases h
      exact .odd hodd
    next heven =>
      split at h
      next => cases h
      next hnone =>
        obtain ⟨front, byte, back, rfl, hfront, hbyte⟩ :=
          exists_first_bad (mapM_value?_eq_none_iff.mp hnone)
        rw [firstBad_append hfront hbyte] at h
        cases h
        exact .bad (by omega) rfl (fun b hb => (hdigit b).mpr (hfront b hb))
          (value?_eq_none_iff.mp hbyte)
  · intro h
    unfold readCodes
    cases h with
    | odd hodd => exact if_pos hodd
    | @bad front back byte heven heq hfront hbyte =>
      have hnone : value? byte = none := value?_eq_none_iff.mpr hbyte
      have hmem : byte ∈ codes := heq ▸ by simp
      rw [if_neg (by omega), mapM_value?_eq_none_iff.mpr ⟨byte, hmem, hnone⟩, heq,
        firstBad_append (fun b hb => (hdigit b).mp (hfront b hb)) hnone]

/-! ## Texts -/

/-- The characters of a text that are no separators. -/
def kept (text : String) : List Char := text.toList.filter fun c => !Text.isBlank c && c ≠ ':'

/-- The characters that count: no separators, and no mark in front. -/
def stripped (text : String) : List Char :=
  if ['0', 'x'] <+: kept text then (kept text).drop 2 else kept text

theorem significant_eq (text : String) : significant text = utf8 (stripped text) := by
  have hkept : text.toList.filter (!isSeparator ·) = kept text := by
    apply List.filter_congr
    intro c _
    simp [isSeparator]
  have hmark (cs : List Char) :
      dropMark cs = if ['0', 'x'] <+: cs then cs.drop 2 else cs := by
    unfold dropMark
    split
    next rest => exact (if_pos (List.prefix_append ['0', 'x'] rest)).symm
    next hno =>
      rw [if_neg]
      rintro ⟨rest, rfl⟩
      exact hno rest rfl
  unfold significant utf8
  rw [hkept, hmark]
  rfl

theorem stripped_of_kept {text : String} {cs : List Char} {bs : Bytes} (h : Spells cs bs)
    (hkept : kept text = cs ∨ kept text = '0' :: 'x' :: cs) : stripped text = cs := by
  unfold stripped
  obtain hkept | hkept := hkept <;> rw [hkept]
  · rw [if_neg]
    rintro ⟨rest, rfl⟩
    obtain ⟨n, hn⟩ := h.digits 'x' (by simp)
    exact hn.legible.unmarked rfl
  · exact if_pos (List.prefix_append ['0', 'x'] cs)

theorem read_eq_ok_iff {text : String} {bs : Bytes} :
    read text = .ok bs ↔ Spells (stripped text) bs := by
  unfold read
  rw [mapError_eq_ok_iff, significant_eq, readCodes_utf8_eq_ok_iff]

theorem read_eq_error_iff {text : String} {e : HexError} :
    read text = .error e ↔ e.text = text ∧ CodeFault (utf8 (stripped text)) e.fault := by
  unfold read
  rw [mapError_eq_error_iff, significant_eq]
  constructor
  · rintro ⟨fault, h, rfl⟩
    exact ⟨rfl, readCodes_eq_error_iff.mp h⟩
  · rintro ⟨rfl, h⟩
    exact ⟨e.fault, readCodes_eq_error_iff.mpr h, rfl⟩

theorem read_of_kept {text : String} {cs : List Char} {bs : Bytes} (h : Spells cs bs)
    (hkept : kept text = cs ∨ kept text = '0' :: 'x' :: cs) : read text = .ok bs := by
  rw [read_eq_ok_iff, stripped_of_kept h hkept]
  exact h

/-- **Exact reading.** A text is read as the bytes that its characters spell, separators and one
mark apart; so those are digits, and an even count of them. Any spelling in digits of either case is
read, wherever separators stand and with a mark or without. The error of every other text keeps the
text and tells an odd count of bytes in UTF-8, or else the first byte that is no digit and its
place. -/
theorem exact_reading (text : String) :
    (∀ bs, read text = .ok bs ↔ Spells (stripped text) bs) ∧
    ((∃ bs, read text = .ok bs) ↔
      (∀ c ∈ stripped text, ∃ n, IsDigit c n) ∧ (stripped text).length % 2 = 0) ∧
    (∀ cs bs, Spells cs bs → kept text = cs ∨ kept text = '0' :: 'x' :: cs →
      read text = .ok bs) ∧
    ∀ e, read text = .error e ↔
      e.text = text ∧ CodeFault (utf8 (stripped text)) e.fault := by
  refine ⟨fun _ => read_eq_ok_iff, ?_, fun _ _ => read_of_kept, fun _ => read_eq_error_iff⟩
  rw [← exists_spells_iff]
  exact exists_congr fun _ => read_eq_ok_iff

/-- A mark with a separator in it, and digits of both cases. -/
example : read "0 x:0aFf" = .ok [0x0A, 0xFF] := by cbv

/-! ## Printed texts -/

theorem spells_byteDigits (bs : Bytes) : Spells (bs.flatMap byteDigits) bs := by
  have hdigit {n : Nat} (h : n < 16) : IsDigit (digit n) n := ⟨h, .inl rfl⟩
  induction bs with
  | nil => exact .nil
  | cons b rest ih =>
    have hlt := b.toNat_lt
    have hbyte : UInt8.ofNat (b.toNat / 16 * 16 + b.toNat % 16) = b := by
      rw [Nat.div_add_mod', UInt8.ofNat_toNat]
    have high : IsDigit (digit (b.toNat / 16)) (b.toNat / 16) := hdigit (by omega)
    have low : IsDigit (digit (b.toNat % 16)) (b.toNat % 16) := hdigit (by omega)
    have hspells := Spells.cons high low ih
    rwa [hbyte] at hspells

/-- **What is printed is read back.** -/
theorem read_print (bs : Bytes) : read (print bs) = .ok bs := by
  have hspells := spells_byteDigits bs
  refine read_of_kept hspells (.inl ?_)
  unfold kept print
  rw [String.toList_ofList]
  apply List.filter_eq_self.mpr
  intro c hc
  obtain ⟨n, hn⟩ := hspells.digits c hc
  simpa [isSeparator] using hn.legible.kept

/-- A leading hyphen is no separator, no mark and no digit. -/
theorem head?_of_read {text : String} {bs : Bytes} (h : read text = .ok bs) :
    text.toList.head? ≠ some '-' := by
  intro hhead
  obtain ⟨rest, htext⟩ := List.head?_eq_some_iff.mp hhead
  have hkept : ∃ rest, kept text = '-' :: rest := by
    unfold kept
    rw [htext, List.filter_cons_of_pos (by decide)]
    exact ⟨_, rfl⟩
  obtain ⟨rest, hkept⟩ := hkept
  have hmem : '-' ∈ stripped text := by
    unfold stripped
    rw [hkept]
    simp
  obtain ⟨n, hn⟩ := (read_eq_ok_iff.mp h).digits '-' hmem
  have hnone : value? (.ofNat '-'.toNat) = none := by decide
  rw [hn.legible.value] at hnone
  cases hnone

end Hex

end SmartCard
