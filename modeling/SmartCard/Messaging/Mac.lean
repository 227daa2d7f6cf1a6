import SmartCard.Cipher.Cmac

/-! Authentication: eight bytes of AES-CMAC over the counter block and padded parts. -/

namespace SmartCard.Mac

open Cipher

def macLength : Nat := 8

/-- The bytes that are authenticated. Empty parts are skipped, the others padded one by one. -/
def input (counter : Block) (parts : List Bytes) : Bytes :=
  counter.toBytes ++ parts.flatMap fun part => if part.isEmpty then [] else pad part

def compute (key : Key) (counter : Block) (parts : List Bytes) : Bytes :=
  (cmac key (input counter parts)).toBytes.take macLength

def verify (expected received : Bytes) : Bool := expected = received

end SmartCard.Mac
