import SmartCard.Card.Basic

/-! Runs: what can be asked of a card, and what can happen to its device, one step after another. -/

namespace SmartCard

inductive Step (σ : Type)
  | establish (keys : SessionKeys)
  | establishOn (handle : Nat) (keys : SessionKeys)
  | openBasic
  | openLogical
  | transmit (handle : Nat) (c : Command)
  | transmitBytes (handle : Nat) (bytes : Bytes)
  | close (handle : Nat)
  | limits (handle : Nat)
  | disconnect (reset : Bool)
  /-- Something happens to the device behind the card's back. -/
  | device (change : σ → σ)

inductive Reply
  | done
  | channel (state : ChannelState)
  | response (r : Response)
  | bytes (bs : Bytes)
  | limits (settings : CardSettings)
  deriving DecidableEq, Repr

namespace Card

variable {σ : Type} [Transport σ]

def step (card : Card σ) : Step σ → Except CardError Reply × Card σ
  | .establish keys => (.ok .done, card.establish keys)
  | .establishOn handle keys =>
    let (result, card) := card.establishOn handle keys
    (result.map fun _ => .done, card)
  | .openBasic => ((card.channel 0).map fun ch => .channel (ch.state card.epoch), card)
  | .openLogical =>
    let (result, card) := card.openLogical
    (result.map fun ch => .channel (ch.state card.epoch), card)
  | .transmit handle c =>
    let (result, card) := card.transmit handle c
    (result.map .response, card)
  | .transmitBytes handle bytes =>
    let (result, card) := card.transmitBytes handle bytes
    (result.map .bytes, card)
  | .close handle =>
    let (result, card) := card.close handle
    (result.map fun _ => .done, card)
  | .limits handle => ((card.channel handle).map fun _ => .limits card.settings, card)
  | .disconnect reset =>
    let (result, card) := card.disconnect reset
    (result.map fun _ => .done, card)
  | .device change => (.ok .done, { card with device := change card.device })

/-- The card after a list of steps, whatever they answer. -/
def run (card : Card σ) (steps : List (Step σ)) : Card σ :=
  steps.foldl (fun card s => (card.step s).2) card

theorem run_append (card : Card σ) (first second : List (Step σ)) :
    card.run (first ++ second) = (card.run first).run second :=
  List.foldl_append

end Card

end SmartCard
