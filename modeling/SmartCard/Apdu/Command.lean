import SmartCard.Apdu.Error
import SmartCard.Bytes

/-!
Command APDUs and their ISO 7816-4 encoding.

A command is a four-byte header, then optional data and an optional expected length. Both lengths
are written in short form, unless one of them does not fit; then both are extended.
-/

namespace SmartCard

structure Command where
  cla : UInt8
  ins : UInt8
  p1 : UInt8
  p2 : UInt8
  data : Option Bytes := none
  /-- The largest number of response bytes asked for. -/
  le : Option Nat := none
  deriving DecidableEq, Repr

namespace Command

def maxShortData : Nat := 255

def maxExtendedData : Nat := 65535

/-- The expected length that short form writes as `00`. -/
def maxShortExpected : Nat := 256

/-- The expected length that extended form writes as `0000`. -/
def maxExtendedExpected : Nat := 65536

def header (c : Command) : Bytes := [c.cla, c.ins, c.p1, c.p2]

/-- The data bytes. Empty data is absent data. -/
def body (c : Command) : Bytes := c.data.getD []

/-- The data field that carries `body`: no bytes are no field. -/
def field (body : Bytes) : Option Bytes := if body.isEmpty then none else some body

/-- The same command with empty data left out. -/
def normalized (c : Command) : Command := { c with data := field c.body }

def isExtended (c : Command) : Bool :=
  maxShortData < c.body.length || c.le.any (maxShortExpected < ·)

/-- The length field and the data, nothing for absent data. -/
def dataField (extended : Bool) (body : Bytes) : Bytes :=
  if body.isEmpty then []
  else if extended then 0 :: bigEndian 2 body.length ++ body
  else bigEndian 1 body.length ++ body

/-- The largest expected length of either form wraps to zeros. -/
def expectedField (extended hasData : Bool) (le : Nat) : Bytes :=
  if extended then
    if hasData then bigEndian 2 le else 0 :: bigEndian 2 le
  else bigEndian 1 le

def encodeFields (c : Command) : Bytes :=
  c.header ++ dataField c.isExtended c.body ++
    (c.le.map (expectedField c.isExtended (!c.body.isEmpty))).getD []

/-- The wire form. Data that is too long is reported before an expected length out of range. -/
def encode (c : Command) : Except ApduError Bytes :=
  if maxExtendedData < c.body.length then .error (.dataLength c.body.length)
  else match c.le with
    | none => .ok c.encodeFields
    | some le =>
      if 1 ≤ le ∧ le ≤ maxExtendedExpected then .ok c.encodeFields
      else .error (.expectedLength le)

/-- The number of bytes that `encode` writes. -/
def encodedLength (c : Command) : Nat :=
  let dataPart :=
    if c.body.isEmpty then 0 else c.body.length + if c.isExtended then 3 else 1
  let expectedPart :=
    if c.le.isNone then 0
    else if !c.isExtended then 1
    else if c.body.isEmpty then 3 else 2
  4 + dataPart + expectedPart

end Command

end SmartCard
