import SmartCard.Cipher.Inverse
import SmartCard.Messaging.Counter
import SmartCard.Messaging.Cryptogram

/-!
# Cryptograms

Decryption accepts exactly the encryptions: `decrypt_eq_ok_iff`. What it makes of other byte strings
hangs on their length alone: `decrypt_of_partial`, `decrypt_of_not_encrypted`.
-/

namespace SmartCard

theorem Counter.block_inj {n m : Counter} : n.block = m.block ↔ n = m := by
  refine ⟨fun h => ?_, congrArg block⟩
  simpa [block] using congrArg Cipher.Block.toBits h

namespace Cryptogram

open Cipher

/-! ## Whole blocks -/

theorem split_join (blocks : List Block) : Block.split (Block.join blocks) = (blocks, []) := by
  have h : Block.split (Block.join blocks ++ []) = (blocks, []) :=
    Block.split_join_append blocks (by simp)
  rwa [List.append_nil] at h

theorem split_snd_eq_nil_iff {bs : Bytes} : (Block.split bs).2 = [] ↔ bs.length % 16 = 0 := by
  have hlen := congrArg List.length (Block.join_split bs)
  rw [List.length_append, Block.length_join] at hlen
  have hlt := Block.length_split_snd bs
  rw [← List.length_eq_zero_iff]
  omega

theorem join_split_of_whole {bs : Bytes} (h : bs.length % 16 = 0) :
    Block.join (Block.split bs).1 = bs := by
  have := Block.join_split bs
  rwa [split_snd_eq_nil_iff.mpr h, List.append_nil] at this

theorem length_split_fst {bs : Bytes} (h : bs.length % 16 = 0) :
    16 * (Block.split bs).1.length = bs.length := by
  rw [← Block.length_join, join_split_of_whole h]

theorem length_pad_mod (data : Bytes) : (pad data).length % 16 = 0 := by
  rw [length_pad]
  omega

/-! ## Encryption -/

theorem length_encrypt (key : Key) (counter : Block) (data : Bytes) :
    (encrypt key counter data).length = (data.length / 16 + 1) * 16 := by
  rw [encrypt, Block.length_join, encryptBlocks, length_chain, length_split_fst (length_pad_mod data),
    length_pad]

theorem encrypt_ne_nil (key : Key) (counter : Block) (data : Bytes) :
    encrypt key counter data ≠ [] := by
  intro h
  have := length_encrypt key counter data
  rw [h, List.length_nil] at this
  omega

/-- Decryption, once it is known that the cryptogram is some whole blocks. -/
theorem decrypt_of_whole (key : Key) (counter : Block) {cryptogram : Bytes}
    (hne : cryptogram ≠ []) (hwhole : cryptogram.length % 16 = 0) :
    decrypt key counter cryptogram =
      match unpad? (Block.join (decryptBlocks key counter (Block.split cryptogram).1)) with
      | some data => .ok data
      | none => .error (.malformed .invalidPadding) := by
  have hsnd := split_snd_eq_nil_iff.mpr hwhole
  unfold decrypt
  rcases hsplit : Block.split cryptogram with ⟨blocks, tail⟩
  rw [hsplit] at hsnd
  obtain rfl : tail = [] := hsnd
  cases blocks with
  | nil =>
    have := length_split_fst hwhole
    rw [hsplit, List.length_nil] at this
    exact absurd (List.length_eq_zero_iff.mp this.symm) hne
  | cons b rest => rfl

theorem decrypt_of_partial (key : Key) (counter : Block) {cryptogram : Bytes}
    (h : cryptogram = [] ∨ cryptogram.length % 16 ≠ 0) :
    decrypt key counter cryptogram = .error (.crypto .partialBlock) := by
  unfold decrypt
  rcases hsplit : Block.split cryptogram with ⟨blocks, tail⟩
  rcases h with rfl | h
  · cases hsplit
    rfl
  · have htail : tail ≠ [] := by
      rintro rfl
      exact h (split_snd_eq_nil_iff.mp (by rw [hsplit]))
    obtain ⟨b, rest, rfl⟩ := List.exists_cons_of_ne_nil htail
    cases blocks <;> rfl

@[simp] theorem decrypt_encrypt (key : Key) (counter : Block) (data : Bytes) :
    decrypt key counter (encrypt key counter data) = .ok data := by
  have hwhole : (encrypt key counter data).length % 16 = 0 := by
    rw [length_encrypt]
    omega
  have hplain : Block.join (decryptBlocks key counter
      (Block.split (encrypt key counter data)).1) = pad data := by
    rw [encrypt, split_join, decryptBlocks, encryptBlocks,
      unchain_chain (KeySchedule.ofKey key).decrypt_encrypt, join_split_of_whole (length_pad_mod data)]
  rw [decrypt_of_whole key counter (encrypt_ne_nil key counter data) hwhole, hplain, unpad?_pad]

/-- The cryptogram of the data that padding is stripped to. -/
theorem eq_encrypt_of_unpad? {key : Key} {counter : Block} {cryptogram data : Bytes}
    (hwhole : cryptogram.length % 16 = 0)
    (h : unpad? (Block.join (decryptBlocks key counter (Block.split cryptogram).1)) = some data) :
    cryptogram = encrypt key counter data := by
  have hpad := eq_pad_of_unpad? (by rw [Block.length_join]; omega) h
  rw [encrypt, ← hpad, split_join, decryptBlocks, encryptBlocks,
    chain_unchain (KeySchedule.ofKey key).encrypt_decrypt, join_split_of_whole hwhole]

/-- **Exact inverse.** Decryption returns the data that the cryptogram is the encryption of. -/
theorem decrypt_eq_ok_iff {key : Key} {counter : Block} {cryptogram data : Bytes} :
    decrypt key counter cryptogram = .ok data ↔ cryptogram = encrypt key counter data := by
  constructor
  · intro h
    by_cases hpart : cryptogram = [] ∨ cryptogram.length % 16 ≠ 0
    · rw [decrypt_of_partial key counter hpart] at h
      cases h
    · obtain ⟨hne, hwhole⟩ := not_or.mp hpart
      rw [decrypt_of_whole key counter hne (by omega)] at h
      split at h
      next hunpad =>
        cases h
        exact eq_encrypt_of_unpad? (by omega) hunpad
      next => cases h
  · rintro rfl
    exact decrypt_encrypt key counter data

theorem decrypt_of_not_encrypted {key : Key} {counter : Block} {cryptogram : Bytes}
    (hne : cryptogram ≠ []) (hwhole : cryptogram.length % 16 = 0)
    (h : ∀ data, cryptogram ≠ encrypt key counter data) :
    decrypt key counter cryptogram = .error (.malformed .invalidPadding) := by
  rw [decrypt_of_whole key counter hne hwhole]
  split
  next data hunpad => exact absurd (eq_encrypt_of_unpad? hwhole hunpad) (h data)
  next => rfl

end Cryptogram

end SmartCard
