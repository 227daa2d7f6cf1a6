import SmartCard.Cipher.Block
import SmartCard.Hex

/-! The send sequence counter: 128 bits that wrap around. -/

namespace SmartCard

abbrev Counter := BitVec 128

namespace Counter

/-- The number of counter values. -/
def count : Nat := 1 <<< 128

def zero : Counter := 0

def next (n : Counter) : Counter := n + 1

/-- The counter as sixteen bytes, most significant first. -/
def block (n : Counter) : Cipher.Block := .ofBits n

def display (n : Counter) : String := Hex.print n.block.toBytes

end Counter

end SmartCard
