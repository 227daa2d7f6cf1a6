import SmartCard.Hex
import SmartCard.Text.Blank
import SmartCard.Text.Quoted

/-! Byte strings read from hexadecimal text with separators and an optional `0x`. -/

namespace SmartCard

inductive HexFault
  | oddLength
  /-- The byte at `position` of the text's UTF-8 form is no digit. -/
  | badDigit (byte : UInt8) (position : Nat)
  deriving DecidableEq, Repr

structure HexError where
  text : String
  fault : HexFault
  deriving DecidableEq, Repr

def HexFault.message : HexFault → String
  | .oddLength => "Odd number of digits"
  | .badDigit byte position =>
    "Invalid character " ++ Text.quoted (Char.ofNat byte.toNat) ++ " at position " ++
      toString position

def HexError.message (e : HexError) : String :=
  "invalid hex '" ++ e.text ++ "': " ++ e.fault.message

namespace Hex

def isSeparator (c : Char) : Bool := Text.isBlank c || c = ':'

def dropMark : List Char → List Char
  | '0' :: 'x' :: rest => rest
  | cs => cs

/-- The UTF-8 bytes of the text that remain once separators and then one leading `0x` are gone. -/
def significant (text : String) : Bytes :=
  (dropMark (text.toList.filter (!isSeparator ·))).flatMap String.utf8EncodeChar

/-- The first code that is no digit, named by its place. -/
def firstBad (codes : Bytes) : HexFault :=
  let position := codes.findIdx fun c => (value? c).isNone
  .badDigit (codes.getD position 0) position

def joinPairs : List UInt8 → Bytes
  | hi :: lo :: rest => (hi * 16 + lo) :: joinPairs rest
  | _ => []

/-- An odd count of codes is reported before any code that is no digit. -/
def readCodes (codes : Bytes) : Except HexFault Bytes :=
  if codes.length % 2 = 1 then .error .oddLength
  else match codes.mapM value? with
    | some values => .ok (joinPairs values)
    | none => .error (firstBad codes)

def read (text : String) : Except HexError Bytes :=
  (readCodes (significant text)).mapError (⟨text, ·⟩)

end Hex

end SmartCard
