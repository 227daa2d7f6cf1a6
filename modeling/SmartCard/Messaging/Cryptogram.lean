import SmartCard.Cipher.Aes
import SmartCard.Cipher.Chaining
import SmartCard.Cipher.Padding
import SmartCard.Messaging.Error

/-!
Confidentiality: padded AES-CBC, from an initial vector that is the encrypted counter block.
-/

namespace SmartCard.Cryptogram

open Cipher

def initialVector (key : Key) (counter : Block) : Block := (KeySchedule.ofKey key).encrypt counter

/-- Chain whole blocks, without padding. -/
def encryptBlocks (key : Key) (counter : Block) (blocks : List Block) : List Block :=
  let aes := KeySchedule.ofKey key
  chain aes.encrypt (aes.encrypt counter) blocks

def decryptBlocks (key : Key) (counter : Block) (blocks : List Block) : List Block :=
  let aes := KeySchedule.ofKey key
  unchain aes.decrypt (aes.encrypt counter) blocks

def encrypt (key : Key) (counter : Block) (data : Bytes) : Bytes :=
  Block.join (encryptBlocks key counter (Block.split (pad data)).1)

def decrypt (key : Key) (counter : Block) (cryptogram : Bytes) : Except MessagingError Bytes :=
  match Block.split cryptogram with
  | (b :: rest, []) =>
    match unpad? (Block.join (decryptBlocks key counter (b :: rest))) with
    | some data => .ok data
    | none => .error (.malformed .invalidPadding)
  | _ => .error (.crypto .partialBlock)

end SmartCard.Cryptogram
