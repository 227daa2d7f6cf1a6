import SmartCard.Hex

/-! The two status bytes of a response and what ISO 7816-4 says about them. -/

namespace SmartCard

structure StatusWord where
  sw1 : UInt8
  sw2 : UInt8
  deriving DecidableEq, Repr

inductive Severity
  | debug
  | info
  | warning
  deriving DecidableEq, Repr

namespace StatusWord

def success : StatusWord := ⟨0x90, 0x00⟩

def toBytes (s : StatusWord) : Bytes := [s.sw1, s.sw2]

def toNat (s : StatusWord) : Nat := s.sw1.toNat * 256 + s.sw2.toNat

def ofNat (n : Nat) : StatusWord := ⟨UInt8.ofNat (n / 256), UInt8.ofNat n⟩

def isSuccess (s : StatusWord) : Bool := s = success

def hasMoreData (s : StatusWord) : Bool := s.sw1 = 0x61

def isMessagingError (s : StatusWord) : Bool := s.sw1 = 0x69 && (s.sw2 = 0x87 || s.sw2 = 0x88)

def severity (s : StatusWord) : Severity :=
  if s.isSuccess || s.hasMoreData then .debug
  else if s.sw1 = 0x62 || s.sw1 = 0x63 then .info
  else .warning

/-- The statuses that have a text of their own. -/
def descriptions : List (Nat × String) :=
  [(0x9000, "Success"),
   (0x6282, "End of file/record reached before reading Le bytes"),
   (0x6700, "Wrong length"),
   (0x6881, "Logical channel not supported"),
   (0x6882, "Secure messaging not supported"),
   (0x6982, "Security status not satisfied"),
   (0x6985, "Conditions of use not satisfied"),
   (0x6986, "Command not allowed"),
   (0x6987, "Expected SM data objects missing"),
   (0x6988, "SM data objects incorrect"),
   (0x6A81, "Function not supported"),
   (0x6A82, "File not found"),
   (0x6A86, "Incorrect parameters P1-P2"),
   (0x6D00, "Instruction code not supported or invalid"),
   (0x6E00, "Class not supported"),
   (0x6F00, "No precise diagnosis")]

/-- The text of the family that a status belongs to. -/
def familyDescription (s : StatusWord) : String :=
  if s.sw1 = 0x61 then "More data available"
  else if s.sw1 = 0x62 then "Warning, state of non-volatile memory unchanged"
  else if s.sw1 = 0x63 then
    if s.sw2 &&& 0xF0 = 0xC0 then "Counter value"
    else "Warning, state of non-volatile memory changed"
  else "Unknown status word"

def description (s : StatusWord) : String :=
  (descriptions.lookup s.toNat).getD s.familyDescription

/-- The status in hexadecimal, then its description. -/
def display (s : StatusWord) : String := Hex.print s.toBytes ++ " (" ++ s.description ++ ")"

end StatusWord

end SmartCard
