import SmartCard.Cipher.Block
import SmartCard.Cipher.SBox

/-! AES with 128-bit keys, on blocks whose words are the columns of the state. -/

namespace SmartCard.Cipher

/-! ## The field -/

/-- Multiply by `x` modulo `x^8 + x^4 + x^3 + x + 1`. -/
def double (b : UInt8) : UInt8 :=
  let carry := b >>> 7
  (b <<< 1) ^^^ carry ^^^ (carry <<< 1) ^^^ (carry <<< 3) ^^^ (carry <<< 4)

/-! ## Round steps -/

def mixColumn (w : Word) : Word :=
  ⟨double w.b0 ^^^ double w.b1 ^^^ w.b1 ^^^ w.b2 ^^^ w.b3,
    w.b0 ^^^ double w.b1 ^^^ double w.b2 ^^^ w.b2 ^^^ w.b3,
    w.b0 ^^^ w.b1 ^^^ double w.b2 ^^^ double w.b3 ^^^ w.b3,
    double w.b0 ^^^ w.b0 ^^^ w.b1 ^^^ w.b2 ^^^ double w.b3⟩

/-- The products of `b` with 9, 11, 13 and 14. -/
def inverseMultiples (b : UInt8) : Word :=
  let b2 := double b
  let b4 := double b2
  let b8 := double b4
  ⟨b8 ^^^ b, b8 ^^^ b2 ^^^ b, b8 ^^^ b4 ^^^ b, b8 ^^^ b4 ^^^ b2⟩

def unmixColumn (w : Word) : Word :=
  let p := inverseMultiples w.b0
  let q := inverseMultiples w.b1
  let r := inverseMultiples w.b2
  let s := inverseMultiples w.b3
  ⟨p.b3 ^^^ q.b1 ^^^ r.b2 ^^^ s.b0,
    p.b0 ^^^ q.b3 ^^^ r.b1 ^^^ s.b2,
    p.b2 ^^^ q.b0 ^^^ r.b3 ^^^ s.b1,
    p.b1 ^^^ q.b2 ^^^ r.b0 ^^^ s.b3⟩

/-- Row `r` of the state moves `r` columns to the left. -/
def shiftRows (b : Block) : Block :=
  ⟨⟨b.w0.b0, b.w1.b1, b.w2.b2, b.w3.b3⟩, ⟨b.w1.b0, b.w2.b1, b.w3.b2, b.w0.b3⟩,
    ⟨b.w2.b0, b.w3.b1, b.w0.b2, b.w1.b3⟩, ⟨b.w3.b0, b.w0.b1, b.w1.b2, b.w2.b3⟩⟩

def unshiftRows (b : Block) : Block :=
  ⟨⟨b.w0.b0, b.w3.b1, b.w2.b2, b.w1.b3⟩, ⟨b.w1.b0, b.w0.b1, b.w3.b2, b.w2.b3⟩,
    ⟨b.w2.b0, b.w1.b1, b.w0.b2, b.w3.b3⟩, ⟨b.w3.b0, b.w2.b1, b.w1.b2, b.w0.b3⟩⟩

def scramble (b : Block) : Block := shiftRows (b.map (Word.map substitute))

def unscramble (b : Block) : Block := (unshiftRows b).map (Word.map unsubstitute)

def round (state roundKey : Block) : Block := (scramble state).map mixColumn ^^^ roundKey

def unround (roundKey state : Block) : Block := unscramble ((state ^^^ roundKey).map unmixColumn)

/-! ## Key schedule -/

abbrev Key := Block

def rotate (w : Word) : Word := ⟨w.b1, w.b2, w.b3, w.b0⟩

/-- The round key after `k`; `constant` is the constant of the round. -/
def nextKey (k : Key) (constant : UInt8) : Key :=
  let w0 := k.w0 ^^^ (rotate k.w3).map substitute ^^^ ⟨constant, 0, 0, 0⟩
  let w1 := k.w1 ^^^ w0
  let w2 := k.w2 ^^^ w1
  ⟨w0, w1, w2, k.w3 ^^^ w2⟩

/-- The round keys of a key: one before the first round, nine for full rounds, one for the last. -/
structure KeySchedule where
  first : Block
  middle : List Block
  last : Block

def KeySchedule.ofKey (k : Key) : KeySchedule :=
  let k1 := nextKey k 0x01
  let k2 := nextKey k1 0x02
  let k3 := nextKey k2 0x04
  let k4 := nextKey k3 0x08
  let k5 := nextKey k4 0x10
  let k6 := nextKey k5 0x20
  let k7 := nextKey k6 0x40
  let k8 := nextKey k7 0x80
  let k9 := nextKey k8 0x1b
  ⟨k, [k1, k2, k3, k4, k5, k6, k7, k8, k9], nextKey k9 0x36⟩

def KeySchedule.encrypt (s : KeySchedule) (b : Block) : Block :=
  scramble (s.middle.foldl round (b ^^^ s.first)) ^^^ s.last

def KeySchedule.decrypt (s : KeySchedule) (b : Block) : Block :=
  s.middle.foldr unround (unscramble (b ^^^ s.last)) ^^^ s.first

end SmartCard.Cipher
