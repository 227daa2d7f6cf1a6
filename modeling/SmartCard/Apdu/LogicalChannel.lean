import SmartCard.Apdu.Command

/-!
Logical channels, numbered 0 to 19, and their place in the class byte.

Channels 0 to 3 stand in the two low bits. Channels 4 to 19 set bit `40` and stand in the low four
bits, counted from 4.
-/

namespace SmartCard

structure LogicalChannel where
  number : Fin 20
  deriving DecidableEq, Repr

namespace LogicalChannel

def basic : LogicalChannel := ⟨0⟩

def isBasic (n : LogicalChannel) : Bool := n = basic

def ofByte (b : UInt8) : Except ApduError LogicalChannel :=
  if h : b.toNat < 20 then .ok ⟨⟨b.toNat, h⟩⟩ else .error (.channelNumber b)

/-- The channel that a class byte addresses. -/
def ofClass (cla : UInt8) : LogicalChannel :=
  if cla &&& 0x40 = 0 then
    ⟨⟨cla.toNat % 4, by omega⟩⟩
  else
    ⟨⟨4 + cla.toNat % 16, by omega⟩⟩

/-- The class byte `cla` made to address the channel. Above channel 3 bits already set stay set. -/
def addressClass (n : LogicalChannel) (cla : UInt8) : UInt8 :=
  if n.number < 4 then (cla &&& 0xFC) ||| UInt8.ofNat n.number
  else cla ||| 0x40 ||| UInt8.ofNat (n.number - 4)

/-- The command, addressed to the channel. -/
def address (n : LogicalChannel) (c : Command) : Command :=
  { c.normalized with cla := n.addressClass c.cla }

def display (n : LogicalChannel) : String := toString n.number.val

end LogicalChannel

/-- The command, addressed to the channel that has the number `n`. -/
def Command.addressedTo (c : Command) (n : UInt8) : Except ApduError Command :=
  (LogicalChannel.ofByte n).map (·.address c)

end SmartCard
