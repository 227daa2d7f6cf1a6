import SmartCard.Apdu.Command

/-!
Command APDUs read from bytes: a header, then one of the seven forms of length fields, data and
expected length that ISO 7816-4 allows.
-/

namespace SmartCard.Command

/-- An expected length byte, `00` for the largest. -/
def shortExpected (b : UInt8) : Nat := if b = 0 then maxShortExpected else b.toNat

/-- A two-byte expected length, `0000` for the largest. -/
def extendedExpected (hi lo : UInt8) : Nat :=
  let n := ofBigEndian [hi, lo]
  if n = 0 then maxExtendedExpected else n

def shortExpected? : Bytes → Option Nat
  | [b] => some (shortExpected b)
  | _ => none

def extendedExpected? : Bytes → Option Nat
  | [hi, lo] => some (extendedExpected hi lo)
  | _ => none

/-- Data of `lc` bytes, at least one, then nothing or an expected length that `expected?` reads. -/
def parseTail (expected? : Bytes → Option Nat) (lc : Nat) (tail : Bytes) :
    Option (Option Bytes × Option Nat) :=
  if lc = 0 then none
  else if tail.length = lc then some (some tail, none)
  else (expected? (tail.drop lc)).map fun le => (some (tail.take lc), some le)

/-- Data and expected length, read from what follows the header. -/
def parseFields : Bytes → Option (Option Bytes × Option Nat)
  | [] => some (none, none)
  | [b] => some (none, some (shortExpected b))
  | [0, hi, lo] => some (none, some (extendedExpected hi lo))
  | 0 :: hi :: lo :: tail => parseTail extendedExpected? (ofBigEndian [hi, lo]) tail
  | lc :: tail => parseTail shortExpected? lc.toNat tail

def parse (bytes : Bytes) : Except ApduError Command :=
  match bytes with
  | cla :: ins :: p1 :: p2 :: fields =>
    match parseFields fields with
    | some (data, le) => .ok { cla, ins, p1, p2, data, le }
    | none => .error (.commandLength bytes.length)
  | _ => .error (.commandLength bytes.length)

end SmartCard.Command
