import SmartCard.Cipher.Aes
import SmartCard.Cipher.Padding

/-! The AES-CMAC tag of a byte string. -/

namespace SmartCard.Cipher

/-- Multiply a block by `x` modulo `x^128 + x^7 + x^2 + x + 1`. -/
def doubleBlock (b : Block) : Block :=
  let x := b.toBits
  .ofBits ((x <<< 1) ^^^ (if x.msb then 0x87 else 0))

/-- Chain the blocks; the last one is also combined with `subkey`. -/
def absorb (encrypt : Block → Block) (subkey : Block) (state : Block) : List Block → Block
  | [] => state
  | [b] => encrypt (state ^^^ b ^^^ subkey)
  | b :: rest => absorb encrypt subkey (encrypt (state ^^^ b)) rest

/-- A message that is no positive number of whole blocks is padded and takes the second subkey. -/
def cmac (key : Key) (message : Bytes) : Block :=
  let aes := KeySchedule.ofKey key
  let zero : Block := .ofBits 0
  let subkey := doubleBlock (aes.encrypt zero)
  match Block.split message with
  | (b :: rest, []) => absorb aes.encrypt subkey zero (b :: rest)
  | _ => absorb aes.encrypt (doubleBlock subkey) zero (Block.split (pad message)).1

end SmartCard.Cipher
