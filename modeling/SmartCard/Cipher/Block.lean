import SmartCard.Bytes

/-! Sixteen-byte blocks, as four words of four bytes each. -/

namespace SmartCard.Cipher

structure Word where
  b0 : UInt8
  b1 : UInt8
  b2 : UInt8
  b3 : UInt8
  deriving DecidableEq, Repr, Inhabited

namespace Word

instance : XorOp Word :=
  ⟨fun v w => ⟨v.b0 ^^^ w.b0, v.b1 ^^^ w.b1, v.b2 ^^^ w.b2, v.b3 ^^^ w.b3⟩⟩

theorem xor_def (v w : Word) :
    v ^^^ w = ⟨v.b0 ^^^ w.b0, v.b1 ^^^ w.b1, v.b2 ^^^ w.b2, v.b3 ^^^ w.b3⟩ := rfl

def map (f : UInt8 → UInt8) (w : Word) : Word := ⟨f w.b0, f w.b1, f w.b2, f w.b3⟩

def toBytes (w : Word) : Bytes := [w.b0, w.b1, w.b2, w.b3]

def toBits (w : Word) : BitVec 32 :=
  w.b0.toBitVec ++ w.b1.toBitVec ++ w.b2.toBitVec ++ w.b3.toBitVec

def ofBits (x : BitVec 32) : Word :=
  ⟨⟨x.extractLsb' 24 8⟩, ⟨x.extractLsb' 16 8⟩, ⟨x.extractLsb' 8 8⟩, ⟨x.extractLsb' 0 8⟩⟩

@[simp] theorem toBits_ofBits (x : BitVec 32) : (ofBits x).toBits = x := by
  have h24 : x.extractLsb' 24 8 ++ x.extractLsb' 16 8 = x.extractLsb' 16 16 :=
    BitVec.extractLsb'_append_extractLsb'_eq_extractLsb' rfl
  have h16 : x.extractLsb' 16 16 ++ x.extractLsb' 8 8 = x.extractLsb' 8 24 :=
    BitVec.extractLsb'_append_extractLsb'_eq_extractLsb' rfl
  have h8 : x.extractLsb' 8 24 ++ x.extractLsb' 0 8 = x.extractLsb' 0 32 :=
    BitVec.extractLsb'_append_extractLsb'_eq_extractLsb' rfl
  calc (ofBits x).toBits
      = x.extractLsb' 24 8 ++ x.extractLsb' 16 8 ++ x.extractLsb' 8 8 ++ x.extractLsb' 0 8 := rfl
    _ = x := by rw [h24, h16, h8, BitVec.extractLsb'_eq_self]

end Word

structure Block where
  w0 : Word
  w1 : Word
  w2 : Word
  w3 : Word
  deriving DecidableEq, Repr, Inhabited

namespace Block

instance : XorOp Block :=
  ⟨fun a b => ⟨a.w0 ^^^ b.w0, a.w1 ^^^ b.w1, a.w2 ^^^ b.w2, a.w3 ^^^ b.w3⟩⟩

theorem xor_def (a b : Block) :
    a ^^^ b = ⟨a.w0 ^^^ b.w0, a.w1 ^^^ b.w1, a.w2 ^^^ b.w2, a.w3 ^^^ b.w3⟩ := rfl

def map (f : Word → Word) (b : Block) : Block := ⟨f b.w0, f b.w1, f b.w2, f b.w3⟩

def toBytes (b : Block) : Bytes :=
  b.w0.toBytes ++ b.w1.toBytes ++ b.w2.toBytes ++ b.w3.toBytes

/-- The block as a number, first byte most significant. -/
def toBits (b : Block) : BitVec 128 :=
  b.w0.toBits ++ b.w1.toBits ++ b.w2.toBits ++ b.w3.toBits

def ofBits (x : BitVec 128) : Block :=
  ⟨.ofBits (x.extractLsb' 96 32), .ofBits (x.extractLsb' 64 32), .ofBits (x.extractLsb' 32 32),
    .ofBits (x.extractLsb' 0 32)⟩

@[simp] theorem toBits_ofBits (x : BitVec 128) : (ofBits x).toBits = x := by
  have h96 : x.extractLsb' 96 32 ++ x.extractLsb' 64 32 = x.extractLsb' 64 64 :=
    BitVec.extractLsb'_append_extractLsb'_eq_extractLsb' rfl
  have h64 : x.extractLsb' 64 64 ++ x.extractLsb' 32 32 = x.extractLsb' 32 96 :=
    BitVec.extractLsb'_append_extractLsb'_eq_extractLsb' rfl
  have h32 : x.extractLsb' 32 96 ++ x.extractLsb' 0 32 = x.extractLsb' 0 128 :=
    BitVec.extractLsb'_append_extractLsb'_eq_extractLsb' rfl
  calc (ofBits x).toBits
      = x.extractLsb' 96 32 ++ x.extractLsb' 64 32 ++ x.extractLsb' 32 32 ++
          x.extractLsb' 0 32 := by simp only [ofBits, toBits, Word.toBits_ofBits]
    _ = x := by rw [h96, h64, h32, BitVec.extractLsb'_eq_self]

/-- The whole blocks at the front of a byte string, and the fewer than sixteen bytes left over. -/
def split : Bytes → List Block × Bytes
  | a0 :: a1 :: a2 :: a3 :: b0 :: b1 :: b2 :: b3 :: c0 :: c1 :: c2 :: c3 :: d0 :: d1 :: d2 :: d3 ::
      rest =>
    let (blocks, tail) := split rest
    (⟨⟨a0, a1, a2, a3⟩, ⟨b0, b1, b2, b3⟩, ⟨c0, c1, c2, c3⟩, ⟨d0, d1, d2, d3⟩⟩ :: blocks, tail)
  | tail => ([], tail)

/-- The bytes of a list of blocks. -/
def join (blocks : List Block) : Bytes := blocks.flatMap toBytes

/-- The block that a byte string of exactly sixteen bytes spells. -/
def ofBytes? (bs : Bytes) : Option Block :=
  match split bs with
  | ([block], []) => some block
  | _ => none

@[simp] theorem length_toBytes (b : Block) : b.toBytes.length = 16 := rfl

@[simp] theorem length_join (blocks : List Block) : (join blocks).length = 16 * blocks.length := by
  induction blocks with
  | nil => rfl
  | cons b rest ih =>
    rw [join, List.flatMap_cons, List.length_append, ← join, ih, length_toBytes, List.length_cons]
    omega

@[simp] theorem split_toBytes_append (b : Block) (rest : Bytes) :
    split (b.toBytes ++ rest) = (b :: (split rest).1, (split rest).2) := rfl

theorem split_of_length_lt {tail : Bytes} (h : tail.length < 16) : split tail = ([], tail) := by
  unfold split
  split
  · simp at h
    omega
  · rfl

/-- Splitting undoes joining, and sets apart what is too short for a block. -/
theorem split_join_append (blocks : List Block) {tail : Bytes} (h : tail.length < 16) :
    split (join blocks ++ tail) = (blocks, tail) := by
  induction blocks with
  | nil => exact split_of_length_lt h
  | cons b rest ih =>
    rw [join, List.flatMap_cons, List.append_assoc, split_toBytes_append, ← join, ih]

theorem join_split (bs : Bytes) : join (split bs).1 ++ (split bs).2 = bs := by
  fun_induction split bs with
  | case1 a0 a1 a2 a3 b0 b1 b2 b3 c0 c1 c2 c3 d0 d1 d2 d3 rest blocks tail h ih =>
    simp only [h] at ih
    simp [join, toBytes, Word.toBytes, ← ih]
  | case2 tail => rfl

theorem length_split_snd (bs : Bytes) : (split bs).2.length < 16 := by
  fun_induction split bs with
  | case1 a0 a1 a2 a3 b0 b1 b2 b3 c0 c1 c2 c3 d0 d1 d2 d3 rest blocks tail h ih =>
    simpa only [h] using ih
  | case2 tail h =>
    iterate 16
      obtain _ | ⟨_, tail⟩ := tail
      · simp
    exact (h _ _ _ _ _ _ _ _ _ _ _ _ _ _ _ _ _ rfl).elim

end Block

end SmartCard.Cipher
