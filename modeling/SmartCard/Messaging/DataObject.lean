import SmartCard.Apdu.Command
import SmartCard.Messaging.Error

/-!
Secure messaging data objects: a tag byte, a BER length and a value.

Lengths below `80` take one byte. Longer ones follow a byte that counts their big-endian bytes.
-/

namespace SmartCard

inductive Tag
  | plainData
  | encryptedData
  | expectedLength
  | status
  | mac
  deriving DecidableEq, Repr

namespace Tag

def byte : Tag → UInt8
  | plainData => 0x81
  | encryptedData => 0x87
  | expectedLength => 0x97
  | status => 0x99
  | mac => 0x8E

def ofByte? (b : UInt8) : Option Tag :=
  [plainData, encryptedData, expectedLength, status, mac].find? (·.byte = b)

theorem ofByte?_byte (t : Tag) : ofByte? t.byte = some t := by cases t <;> rfl

end Tag

structure DataObject where
  tag : Tag
  value : Bytes
  deriving DecidableEq, Repr

namespace DataObject

/-! ## Writing -/

/-- The number of bytes that `n` needs. -/
def byteWidth (n : Nat) : Nat := if n = 0 then 0 else n.log2 / 8 + 1

def lengthField (n : Nat) : Bytes :=
  if n < 0x80 then [UInt8.ofNat n]
  else UInt8.ofNat (0x80 + byteWidth n) :: bigEndian (byteWidth n) n

def encode (o : DataObject) : Bytes := o.tag.byte :: lengthField o.value.length ++ o.value

/-- The number of bytes that `encode` writes. -/
def encodedLength (o : DataObject) : Nat :=
  let n := o.value.length
  1 + (if n < 0x80 then 1 else 1 + byteWidth n) + n

def encodeAll (objects : List DataObject) : Bytes := objects.flatMap encode

/-- An expected length in one byte up to 256 and two bytes above, 256 as `00` and 65536 as `0000`. -/
def ofExpectedLength (le : Nat) : Except Malformation DataObject :=
  if le = 0 then .error .zeroExpectedLength
  else if le ≤ Command.maxShortExpected then .ok ⟨.expectedLength, bigEndian 1 le⟩
  else if le ≤ Command.maxExtendedExpected then .ok ⟨.expectedLength, bigEndian 2 le⟩
  else .error .expectedLengthTooLarge

/-! ## Reading -/

/-- The most bytes that a length may take after the byte that counts them. -/
def maxLengthBytes : Nat := 4

/-- Read a length field, and return what follows it too. -/
def readLength : Bytes → Except Malformation (Nat × Bytes)
  | [] => .error .truncatedLength
  | first :: rest =>
    if first < 0x80 then .ok (first.toNat, rest)
    else if first = 0x80 then .error .indefiniteLength
    else
      let width := first.toNat - 0x80
      if maxLengthBytes < width then .error .lengthFieldTooLong
      else if rest.length < width then .error .truncatedLength
      else .ok (ofBigEndian (rest.take width), rest.drop width)

/-- Read one object, and return what follows it too. The tag is looked at last. -/
def decode : Bytes → Except Malformation (DataObject × Bytes)
  | [] => .error .missingObject
  | tagByte :: afterTag =>
    match readLength afterTag with
    | .error e => .error e
    | .ok (length, rest) =>
      if rest.length < length then .error .truncatedValue
      else match Tag.ofByte? tagByte with
        | none => .error .unexpectedTag
        | some tag => .ok (⟨tag, rest.take length⟩, rest.drop length)

end DataObject

end SmartCard
