import SmartCard.Proofs.Messaging.Cryptogram

/-!
# Encryption and decryption as inverses

Two descriptions of a cryptogram that do not go through its definition. `Chained` says of each block
what it is the encryption of, and `paddedBlocks` pads only the bytes that the whole blocks leave
over.

`Cryptogram.exact_inverse`: a cryptogram is the chaining of the padded blocks, decryption returns
the data of exactly the cryptograms, and the error of any other byte string hangs on its length.
-/

namespace SmartCard

namespace Cipher

variable {encrypt : Block → Block} {iv b c : Block} {bs cs : List Block}

/-! ## Chaining, block by block -/

/-- The blocks `cs` are `bs` chained from `iv`: each block is combined with the result before it,
the first one with `iv`, and encrypted. -/
structure Chained (encrypt : Block → Block) (iv : Block) (bs cs : List Block) : Prop where
  length : cs.length = bs.length
  block : ∀ {i : Nat} {b prev : Block}, bs[i]? = some b → (iv :: cs)[i]? = some prev →
    cs[i]? = some (encrypt (b ^^^ prev))

theorem chained_cons_iff :
    Chained encrypt iv (b :: bs) (c :: cs) ↔ c = encrypt (b ^^^ iv) ∧ Chained encrypt c bs cs := by
  constructor
  · intro h
    have hfirst : some c = some (encrypt (b ^^^ iv)) := h.block (i := 0) rfl rfl
    refine ⟨Option.some.inj hfirst, ⟨Nat.succ.inj h.length, ?_⟩⟩
    intro i b' prev hb hprev
    exact h.block (i := i + 1) hb hprev
  · rintro ⟨rfl, h⟩
    refine ⟨congrArg Nat.succ h.length, ?_⟩
    intro i b' prev hb hprev
    cases i with
    | zero =>
      cases hb
      cases hprev
      rfl
    | succ i => exact h.block (i := i) hb hprev

/-- Chaining has one result, the one that `chain` computes. -/
theorem chained_iff : Chained encrypt iv bs cs ↔ cs = chain encrypt iv bs := by
  induction bs generalizing iv cs with
  | nil =>
    refine ⟨fun h => List.length_eq_zero_iff.mp h.length, ?_⟩
    rintro rfl
    exact ⟨rfl, fun hb => nomatch hb⟩
  | cons b bs ih =>
    cases cs with
    | nil => exact ⟨fun h => (Nat.succ_ne_zero _ h.length.symm).elim, fun h => nomatch h⟩
    | cons c cs =>
      rw [chained_cons_iff, ih, chain, List.cons.injEq]
      constructor
      · rintro ⟨rfl, h⟩
        exact ⟨rfl, h⟩
      · rintro ⟨rfl, h⟩
        exact ⟨rfl, h⟩

/-! ## Padding of the last block -/

/-- Fewer than sixteen bytes, filled up to a block with the marker and zeros. -/
def fillUp (tail : Bytes) : Bytes := tail ++ paddingMarker :: List.replicate (15 - tail.length) 0

/-- The whole blocks of the data, and one more of the bytes that they leave over. -/
def paddedBlocks (data : Bytes) : List Block :=
  (Block.split data).1 ++ (Block.split (fillUp (Block.split data).2)).1

theorem length_fillUp {tail : Bytes} (h : tail.length < 16) : (fillUp tail).length = 16 := by
  simp only [fillUp, List.length_append, List.length_cons, List.length_replicate]
  omega

/-- What is left over is as long as the length leaves over. -/
theorem length_split_snd_eq (data : Bytes) : (Block.split data).2.length = data.length % 16 := by
  have hsum := congrArg List.length (Block.join_split data)
  have hlt := Block.length_split_snd data
  rw [List.length_append, Block.length_join] at hsum
  omega

/-- Both ways of padding write the same bytes. -/
theorem join_paddedBlocks (data : Bytes) : Block.join (paddedBlocks data) = pad data := by
  have hlt := Block.length_split_snd data
  have hlast : Block.join (Block.split (fillUp (Block.split data).2)).1 =
      fillUp (Block.split data).2 :=
    Cryptogram.join_split_of_whole (by rw [length_fillUp hlt])
  calc Block.join (paddedBlocks data)
      = Block.join (Block.split data).1 ++ fillUp (Block.split data).2 := by
        rw [paddedBlocks, Block.join, List.flatMap_append, ← Block.join, ← Block.join, hlast]
    _ = data ++ paddingMarker :: List.replicate (15 - data.length % 16) 0 := by
        rw [fillUp, ← List.append_assoc, Block.join_split, length_split_snd_eq]

theorem split_pad (data : Bytes) : Block.split (pad data) = (paddedBlocks data, []) := by
  rw [← join_paddedBlocks, Cryptogram.split_join]

end Cipher

namespace Cryptogram

open Cipher

variable {key : Key} {counter : Block} {cryptogram : Bytes}

/-! ## What encryption writes -/

theorem encrypt_eq_join (data : Bytes) :
    encrypt key counter data =
      Block.join (chain (KeySchedule.ofKey key).encrypt (initialVector key counter)
        (paddedBlocks data)) := by
  rw [encrypt, split_pad]
  rfl

/-! ## What decryption refuses -/

theorem decrypt_eq_crypto_iff {fault : CryptoFault} :
    decrypt key counter cryptogram = .error (.crypto fault) ↔
      fault = .partialBlock ∧ (cryptogram = [] ∨ cryptogram.length % 16 ≠ 0) := by
  constructor
  · intro h
    by_cases hpart : cryptogram = [] ∨ cryptogram.length % 16 ≠ 0
    · rw [decrypt_of_partial key counter hpart] at h
      cases h
      exact ⟨rfl, hpart⟩
    · obtain ⟨hne, hwhole⟩ := not_or.mp hpart
      rw [decrypt_of_whole key counter hne (by omega)] at h
      split at h <;> cases h
  · rintro ⟨rfl, hpart⟩
    exact decrypt_of_partial key counter hpart

theorem decrypt_eq_malformed_iff {reason : Malformation} :
    decrypt key counter cryptogram = .error (.malformed reason) ↔
      reason = .invalidPadding ∧ cryptogram ≠ [] ∧ cryptogram.length % 16 = 0 ∧
        ∀ data, cryptogram ≠ encrypt key counter data := by
  constructor
  · intro h
    by_cases hpart : cryptogram = [] ∨ cryptogram.length % 16 ≠ 0
    · rw [decrypt_of_partial key counter hpart] at h
      cases h
    · obtain ⟨hne, hnot⟩ := not_or.mp hpart
      have hwhole : cryptogram.length % 16 = 0 := by omega
      have hother (data : Bytes) : cryptogram ≠ encrypt key counter data := by
        rintro rfl
        rw [decrypt_encrypt] at h
        cases h
      rw [decrypt_of_not_encrypted hne hwhole hother] at h
      cases h
      exact ⟨rfl, hne, hwhole, hother⟩
  · rintro ⟨rfl, hne, hwhole, hother⟩
    exact decrypt_of_not_encrypted hne hwhole hother

/-- **Decryption is the exact inverse of encryption.** It returns `data` for the encryption of
`data` and nothing else. What is no positive number of whole blocks fails as a cryptogram, and whole
blocks that encrypt nothing fail for their padding. The encryption of `data` is the chaining of its
padded blocks from the encrypted counter, and these are the bytes of `pad data`. -/
theorem exact_inverse (key : Key) (counter : Block) (cryptogram : Bytes) :
    (∀ data, decrypt key counter cryptogram = .ok data ↔
      cryptogram = encrypt key counter data) ∧
    (∀ fault, decrypt key counter cryptogram = .error (.crypto fault) ↔
      fault = .partialBlock ∧ (cryptogram = [] ∨ cryptogram.length % 16 ≠ 0)) ∧
    (∀ reason, decrypt key counter cryptogram = .error (.malformed reason) ↔
      reason = .invalidPadding ∧ cryptogram ≠ [] ∧ cryptogram.length % 16 = 0 ∧
        ∀ data, cryptogram ≠ encrypt key counter data) ∧
    ∀ data, (encrypt key counter data).length = (data.length / 16 + 1) * 16 ∧
      Block.join (paddedBlocks data) = pad data ∧
      ∃ cs, encrypt key counter data = Block.join cs ∧
        Chained (KeySchedule.ofKey key).encrypt (initialVector key counter) (paddedBlocks data)
          cs := by
  refine ⟨fun data => decrypt_eq_ok_iff, fun fault => decrypt_eq_crypto_iff,
    fun reason => decrypt_eq_malformed_iff, fun data => ?_⟩
  exact ⟨length_encrypt key counter data, join_paddedBlocks data, _, encrypt_eq_join data,
    chained_iff.mpr rfl⟩

/-- A whole block of data keeps its bytes, though they look padded, and is followed by a block of
padding. -/
example :
    let data : Bytes := List.replicate 14 0 ++ [0x80, 0x00]
    paddedBlocks data = [⟨⟨0, 0, 0, 0⟩, ⟨0, 0, 0, 0⟩, ⟨0, 0, 0, 0⟩, ⟨0, 0, 0x80, 0⟩⟩,
      ⟨⟨0x80, 0, 0, 0⟩, ⟨0, 0, 0, 0⟩, ⟨0, 0, 0, 0⟩, ⟨0, 0, 0, 0⟩⟩] := by decide

end Cryptogram

end SmartCard
