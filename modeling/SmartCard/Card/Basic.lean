import SmartCard.Card.Channel
import SmartCard.Card.Settings

/-!
A card: its device, its basic channel, and a handle on every logical channel opened through it.

Handle 0 is the basic channel and handle `k + 1` the logical channel that was opened after `k`
others. Handles stay valid names when their channels close.
-/

namespace SmartCard

structure Card (σ : Type) where
  device : σ
  settings : CardSettings := {}
  /-- The number of disconnects so far. -/
  epoch : UInt64 := 0
  basic : Channel := { number := .basic, epoch := 0 }
  /-- The keys that `establish` brought, until the next disconnect. -/
  keys : Option SessionKeys := none
  /-- The logical channels, in the order of their opening. -/
  logical : List Channel := []

namespace Card

variable {σ : Type} [Transport σ]

def isPresent (card : Card σ) : Bool := Transport.isConnected card.device

/-- The channel under a handle. The basic channel is there only while the device is connected. -/
def channel (card : Card σ) : Nat → Except CardError Channel
  | 0 => if card.isPresent then .ok card.basic else .error .notConnected
  | k + 1 =>
    match card.logical[k]? with
    | some ch => .ok ch
    | none => .error (.unknownHandle (k + 1))

def setChannel (card : Card σ) (ch : Channel) : Nat → Card σ
  | 0 => { card with basic := ch }
  | k + 1 => { card with logical := card.logical.set k ch }

/-- Act on the channel under a handle, and keep what becomes of it and of the device. -/
def onChannel {α : Type} (card : Card σ) (handle : Nat)
    (act : Channel → UInt64 → σ → Except CardError α × Channel × σ) :
    Except CardError α × Card σ :=
  match card.channel handle with
  | .error e => (.error e, card)
  | .ok ch =>
    let (result, ch, device) := act ch card.epoch card.device
    (result, { card.setChannel ch handle with device })

def transmit (card : Card σ) (handle : Nat) (c : Command) : Except CardError Response × Card σ :=
  card.onChannel handle (·.transmit · · c)

def transmitBytes (card : Card σ) (handle : Nat) (bytes : Bytes) :
    Except CardError Bytes × Card σ :=
  card.onChannel handle (·.transmitBytes · · bytes)

def close (card : Card σ) (handle : Nat) : Except CardError Unit × Card σ :=
  card.onChannel handle Channel.close

/-- Secure the basic channel, and keep the keys for logical channels opened later. -/
def establish (card : Card σ) (keys : SessionKeys) : Card σ :=
  { card with basic := card.basic.secure keys, keys := some keys }

def establishOn (card : Card σ) (handle : Nat) (keys : SessionKeys) :
    Except CardError Unit × Card σ :=
  card.onChannel handle fun ch _ device => (.ok (), ch.secure keys, device)

/-- The number that the card gave a new channel, which has to be that of a logical channel. -/
def assignedNumber (r : Response) : Except CardError LogicalChannel := do
  let r ← ChannelRequest.openChannel.check r
  match r.payload with
  | [] => throw (.badAssignment .noNumber)
  | b :: _ =>
    let n ← (LogicalChannel.ofByte b).mapError .apdu
    if n.isBasic then throw (.badAssignment .basicChannel)
    return n

/-- A handle on a channel that has just been opened. -/
def newChannel (card : Card σ) (n : LogicalChannel) : Channel :=
  let ch : Channel := { number := n, epoch := card.epoch }
  match card.keys with
  | some keys => if card.settings.securesLogicalChannels then ch.secure keys else ch
  | none => ch

/-- Have the card open a logical channel. The request goes through the basic channel. -/
def openLogical (card : Card σ) : Except CardError Channel × Card σ :=
  let (result, card) := card.transmit 0 manageOpen
  match result.bind assignedNumber with
  | .error e => (.error e, card)
  | .ok n =>
    let ch := card.newChannel n
    (.ok ch, { card with logical := card.logical ++ [ch] })

/-- End the basic channel's session and revoke every handle on a logical channel, whatever the card
and the device answer. A failed reset is reported before a failed request. -/
def disconnect (card : Card σ) (reset : Bool) : Except CardError Unit × Card σ :=
  let epoch := card.epoch + 1
  let (result, basic, device) := card.basic.transmit epoch card.device manageClose
  let (resetResult, device) := if reset then Transport.reset device else (.ok (), device)
  let outcome := do
    resetResult.mapError .transport
    let r ← result
    discard (ChannelRequest.resetChannels.check r)
  (outcome, { card with device, epoch, basic := basic.endSession, keys := none })

end Card

end SmartCard
