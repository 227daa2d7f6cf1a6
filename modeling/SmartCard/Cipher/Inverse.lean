import SmartCard.Cipher.Aes
import SmartCard.Cipher.Chaining
import SmartCard.Cipher.Padding

/-!
Decryption and encryption undo each other, for one block, for a chain of blocks, and for padding.
-/

namespace SmartCard.Cipher

/-! ## Exclusive or -/

@[simp] theorem Word.xor_xor_cancel (v w : Word) : v ^^^ w ^^^ w = v := by
  obtain ⟨⟩ := v
  obtain ⟨⟩ := w
  simp only [Word.xor_def, UInt8.xor_assoc, UInt8.xor_self, UInt8.xor_zero]

@[simp] theorem Block.xor_xor_cancel (a b : Block) : a ^^^ b ^^^ b = a := by
  obtain ⟨⟩ := a
  obtain ⟨⟩ := b
  simp [Block.xor_def]

/-! ## Substitution -/

theorem forall_byte {p : UInt8 → Prop} (h : ∀ i : Fin 256, p (UInt8.ofFin i)) (b : UInt8) :
    p b := by
  simpa using h b.toFin

theorem unsubstitute_substitute (b : UInt8) : unsubstitute (substitute b) = b := by
  revert b
  refine forall_byte ?_
  decide +kernel

theorem substitute_unsubstitute (b : UInt8) : substitute (unsubstitute b) = b := by
  revert b
  refine forall_byte ?_
  decide +kernel

/-! ## Columns -/

theorem double_xor (a b : UInt8) : double (a ^^^ b) = double a ^^^ double b := by
  simp only [double, UInt8.shiftLeft_xor, UInt8.shiftRight_xor]
  ac_rfl

theorem mixColumn_xor (v w : Word) : mixColumn (v ^^^ w) = mixColumn v ^^^ mixColumn w := by
  simp only [mixColumn, Word.xor_def, double_xor, Word.mk.injEq]
  refine ⟨?_, ?_, ?_, ?_⟩ <;> ac_rfl

theorem unmixColumn_xor (v w : Word) :
    unmixColumn (v ^^^ w) = unmixColumn v ^^^ unmixColumn w := by
  simp only [unmixColumn, inverseMultiples, Word.xor_def, double_xor, Word.mk.injEq]
  refine ⟨?_, ?_, ?_, ?_⟩ <;> ac_rfl

/-- A byte is the sum of its bits. -/
theorem eq_xor_bits (b : UInt8) :
    b = (b &&& 0x01) ^^^ (b &&& 0x02) ^^^ (b &&& 0x04) ^^^ (b &&& 0x08) ^^^
      (b &&& 0x10) ^^^ (b &&& 0x20) ^^^ (b &&& 0x40) ^^^ (b &&& 0x80) := by
  revert b
  refine forall_byte ?_
  decide +kernel

theorem and_bit (b : UInt8) : ∀ i : Fin 8,
    b &&& (1 <<< UInt8.ofNat i) = 0 ∨ b &&& (1 <<< UInt8.ofNat i) = 1 <<< UInt8.ofNat i := by
  revert b
  refine forall_byte ?_
  decide +kernel

/-- What holds of zero and of every bit, and of sums, holds of every byte. -/
theorem forall_of_xor {p : UInt8 → Prop} (zero : p 0)
    (bit : ∀ i : Fin 8, p (1 <<< UInt8.ofNat i)) (xor : ∀ a b, p a → p b → p (a ^^^ b))
    (b : UInt8) : p b := by
  have part (i : Fin 8) : p (b &&& (1 <<< UInt8.ofNat i)) := by
    rcases and_bit b i with h | h <;> rw [h]
    · exact zero
    · exact bit i
  rw [eq_xor_bits b]
  exact xor _ _ (xor _ _ (xor _ _ (xor _ _ (xor _ _ (xor _ _ (xor _ _ (part 0) (part 1))
    (part 2)) (part 3)) (part 4)) (part 5)) (part 6)) (part 7)

/-- A word is the sum of its bytes, each in its place. -/
theorem Word.eq_xor_single (w : Word) :
    w = (⟨w.b0, 0, 0, 0⟩ ^^^ ⟨0, w.b1, 0, 0⟩) ^^^ (⟨0, 0, w.b2, 0⟩ ^^^ ⟨0, 0, 0, w.b3⟩) := by
  simp [Word.xor_def]

/-- An additive map that fixes every word with a single bit fixes every word. -/
theorem Word.eq_of_additive {f : Word → Word} (additive : ∀ v w, f (v ^^^ w) = f v ^^^ f w)
    (h : ∀ i : Fin 8, let b : UInt8 := 1 <<< UInt8.ofNat i
      f ⟨b, 0, 0, 0⟩ = ⟨b, 0, 0, 0⟩ ∧ f ⟨0, b, 0, 0⟩ = ⟨0, b, 0, 0⟩ ∧
        f ⟨0, 0, b, 0⟩ = ⟨0, 0, b, 0⟩ ∧ f ⟨0, 0, 0, b⟩ = ⟨0, 0, 0, b⟩) (w : Word) : f w = w := by
  have zero : f ⟨0, 0, 0, 0⟩ = ⟨0, 0, 0, 0⟩ := by
    have := additive ⟨0, 0, 0, 0⟩ ⟨0, 0, 0, 0⟩
    simpa [Word.xor_def] using this
  have fixed (place : UInt8 → Word) (place_zero : place 0 = ⟨0, 0, 0, 0⟩)
      (place_xor : ∀ a b, place (a ^^^ b) = place a ^^^ place b)
      (bits : ∀ i : Fin 8, f (place (1 <<< UInt8.ofNat i)) = place (1 <<< UInt8.ofNat i))
      (b : UInt8) : f (place b) = place b :=
    forall_of_xor (p := fun b => f (place b) = place b) (by rw [place_zero, zero]) bits
      (fun a b ha hb => by rw [place_xor, additive, ha, hb]) b
  rw [w.eq_xor_single, additive, additive, additive,
    fixed (⟨·, 0, 0, 0⟩) rfl (by simp [Word.xor_def]) fun i => (h i).1,
    fixed (⟨0, ·, 0, 0⟩) rfl (by simp [Word.xor_def]) fun i => (h i).2.1,
    fixed (⟨0, 0, ·, 0⟩) rfl (by simp [Word.xor_def]) fun i => (h i).2.2.1,
    fixed (⟨0, 0, 0, ·⟩) rfl (by simp [Word.xor_def]) fun i => (h i).2.2.2]

theorem unmixColumn_mixColumn (w : Word) : unmixColumn (mixColumn w) = w := by
  refine Word.eq_of_additive (f := fun w => unmixColumn (mixColumn w)) ?_ ?_ w
  · intro v w
    simp only [mixColumn_xor, unmixColumn_xor]
  · decide +kernel

theorem mixColumn_unmixColumn (w : Word) : mixColumn (unmixColumn w) = w := by
  refine Word.eq_of_additive (f := fun w => mixColumn (unmixColumn w)) ?_ ?_ w
  · intro v w
    simp only [mixColumn_xor, unmixColumn_xor]
  · decide +kernel

/-! ## Rounds -/

theorem Word.map_map_of_inverse {f g : UInt8 → UInt8} (h : ∀ b, g (f b) = b) (w : Word) :
    (w.map f).map g = w := by
  simp [Word.map, h]

theorem Block.map_map_of_inverse {f g : Word → Word} (h : ∀ w, g (f w) = w) (b : Block) :
    (b.map f).map g = b := by
  simp [Block.map, h]

theorem unscramble_scramble (b : Block) : unscramble (scramble b) = b :=
  Block.map_map_of_inverse (Word.map_map_of_inverse unsubstitute_substitute) b

theorem scramble_unscramble (b : Block) : scramble (unscramble b) = b := by
  rw [scramble, unscramble,
    Block.map_map_of_inverse (Word.map_map_of_inverse substitute_unsubstitute)]
  rfl

theorem unround_round (state k : Block) : unround k (round state k) = state := by
  rw [unround, round, Block.xor_xor_cancel, Block.map_map_of_inverse unmixColumn_mixColumn,
    unscramble_scramble]

theorem round_unround (state k : Block) : round (unround k state) k = state := by
  rw [round, unround, scramble_unscramble, Block.map_map_of_inverse mixColumn_unmixColumn,
    Block.xor_xor_cancel]

theorem foldr_unround_foldl_round (keys : List Block) (state : Block) :
    keys.foldr unround (keys.foldl round state) = state := by
  induction keys generalizing state with
  | nil => rfl
  | cons k keys ih => rw [List.foldl_cons, List.foldr_cons, ih, unround_round]

theorem foldl_round_foldr_unround (keys : List Block) (state : Block) :
    keys.foldl round (keys.foldr unround state) = state := by
  induction keys with
  | nil => rfl
  | cons k keys ih => rw [List.foldr_cons, List.foldl_cons, round_unround, ih]

namespace KeySchedule

theorem decrypt_encrypt (s : KeySchedule) (b : Block) : s.decrypt (s.encrypt b) = b := by
  rw [decrypt, encrypt, Block.xor_xor_cancel, unscramble_scramble, foldr_unround_foldl_round,
    Block.xor_xor_cancel]

theorem encrypt_decrypt (s : KeySchedule) (b : Block) : s.encrypt (s.decrypt b) = b := by
  rw [encrypt, decrypt, Block.xor_xor_cancel, foldl_round_foldr_unround, scramble_unscramble,
    Block.xor_xor_cancel]

end KeySchedule

/-! ## Chains -/

theorem unchain_chain {encrypt decrypt : Block → Block} (h : ∀ b, decrypt (encrypt b) = b)
    (prev : Block) (blocks : List Block) :
    unchain decrypt prev (chain encrypt prev blocks) = blocks := by
  induction blocks generalizing prev with
  | nil => rfl
  | cons b rest ih => simp [chain, unchain, h, ih]

theorem chain_unchain {encrypt decrypt : Block → Block} (h : ∀ b, encrypt (decrypt b) = b)
    (prev : Block) (blocks : List Block) :
    chain encrypt prev (unchain decrypt prev blocks) = blocks := by
  induction blocks generalizing prev with
  | nil => rfl
  | cons c rest ih => simp [chain, unchain, h, ih]

end SmartCard.Cipher
