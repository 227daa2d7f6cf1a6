import SmartCard.Bytes

/-! Upper case hexadecimal text of byte strings. -/

namespace SmartCard.Hex

def digits : List Char := "0123456789ABCDEF".toList

def digit (n : Nat) : Char := digits.getD n '0'

/-- The value of a hexadecimal digit in either case, given by its character code. -/
def value? (c : UInt8) : Option UInt8 :=
  if 0x30 ≤ c ∧ c ≤ 0x39 then some (c - 0x30)
  else if 0x41 ≤ c ∧ c ≤ 0x46 then some (c - 0x37)
  else if 0x61 ≤ c ∧ c ≤ 0x66 then some (c - 0x57)
  else none

def byteDigits (b : UInt8) : List Char := [digit (b.toNat / 16), digit (b.toNat % 16)]

def print (bs : Bytes) : String := String.ofList (bs.flatMap byteDigits)

end SmartCard.Hex
