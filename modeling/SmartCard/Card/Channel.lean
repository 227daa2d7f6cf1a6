import SmartCard.Apdu.Parsing
import SmartCard.Card.Exchange

/-!
Handles on the channels of a card.

A card counts its disconnects in an epoch. A handle on a logical channel is good for the epoch in
which the channel was opened; a handle on the basic channel is good for ever.
-/

namespace SmartCard

structure Channel where
  number : LogicalChannel
  /-- The epoch in which the channel was opened. -/
  epoch : UInt64
  session : Option Session := none
  closed : Bool := false
  deriving DecidableEq

/-- What a handle shows of itself. -/
structure ChannelState where
  number : LogicalChannel
  closed : Bool
  secured : Bool
  deriving DecidableEq, Repr

/-- MANAGE CHANNEL, to have the card open a channel and answer its number. -/
def manageOpen : Command := { cla := 0x00, ins := 0x70, p1 := 0x00, p2 := 0x00, le := some 1 }

/-- MANAGE CHANNEL, to close the channel it is sent on; on the basic channel, all others. -/
def manageClose : Command := { cla := 0x00, ins := 0x70, p1 := 0x80, p2 := 0x00 }

/-- The answer to a request, which has to be a success. -/
def ChannelRequest.check (request : ChannelRequest) (r : Response) : Except CardError Response :=
  if r.isSuccess then .ok r else .error (.refused request r.status)

namespace Channel

def isStale (ch : Channel) (now : UInt64) : Bool := !ch.number.isBasic && now != ch.epoch

def isClosed (ch : Channel) (now : UInt64) : Bool := ch.closed || ch.isStale now

def isSecured (ch : Channel) (now : UInt64) : Bool := ch.session.isSome && !ch.isClosed now

def state (ch : Channel) (now : UInt64) : ChannelState :=
  ⟨ch.number, ch.isClosed now, ch.isSecured now⟩

def shut (ch : Channel) : Channel := { ch with closed := true, session := none }

/-- Start a session with a fresh counter, in the place of any other. -/
def secure (ch : Channel) (keys : SessionKeys) : Channel :=
  { ch with session := some (.start keys) }

def endSession (ch : Channel) : Channel := { ch with session := none }

/-- The command as this channel sends it. The basic channel leaves the class alone. -/
def address (ch : Channel) (c : Command) : Command :=
  if ch.number.isBasic then c.normalized else ch.number.address c

variable {σ : Type} [Transport σ]

def transmit (ch : Channel) (now : UInt64) (device : σ) (c : Command) :
    Except CardError Response × Channel × σ :=
  if ch.isClosed now then (.error (.channelClosed ch.number), ch.shut, device)
  else if !Transport.isConnected device then (.error .notConnected, ch, device)
  else match ch.session with
    | none =>
      let (result, device) := Exchange.plain device (ch.address c)
      (result, ch, device)
    | some session =>
      let (result, session, device) := Exchange.secured session device (ch.address c)
      (result, { ch with session := some session }, device)

/-- Send a command given by its bytes, and return the bytes of the plain response. -/
def transmitBytes (ch : Channel) (now : UInt64) (device : σ) (bytes : Bytes) :
    Except CardError Bytes × Channel × σ :=
  match Command.parse bytes with
  | .error e => (.error (.apdu e), ch, device)
  | .ok c =>
    let (result, ch, device) := ch.transmit now device c
    (result.map Response.encode, ch, device)

/-- The handle is closed afterwards, even if the card refuses. -/
def close (ch : Channel) (now : UInt64) (device : σ) : Except CardError Unit × Channel × σ :=
  if ch.number.isBasic then (.error .basicChannelClose, ch, device)
  else
    let (result, ch, device) := ch.transmit now device manageClose
    ((result.bind ChannelRequest.closeChannel.check).map fun _ => (), ch.shut, device)

end Channel

end SmartCard
