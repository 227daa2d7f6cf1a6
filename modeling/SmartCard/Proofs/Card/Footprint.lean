import SmartCard.Proofs.Card.Addressing
import SmartCard.Proofs.Card.Calls

/-!
# The footprint of a transmission

`Card.Footprint` is all that a command given to a handle may do to a card: send one canonical byte
string at most, move the counter of one session, and nothing else. `footprints`: in every state that
a card can reach, this is what transmission on any handle does, and what the requests to open a
channel and to disconnect do to the basic channel.
-/

namespace SmartCard

/-- What is encoded is canonical: it is parsed, and encoded to itself again. -/
theorem Command.canonical_of_encode {c : Command} {wire : Bytes} (h : c.encode = .ok wire) :
    ∃ w, Command.parse wire = .ok w ∧ w.encode = .ok wire :=
  ⟨c.normalized, Command.parse_encode h, c.encode_normalized.trans h⟩

namespace Channel

/-- Addressing a command leaves the faults of its lengths as they are. -/
theorem encode_address_eq_error_iff {ch : Channel} {c : Command} {e : ApduError} :
    (ch.address c).encode = .error e ↔ c.encode = .error e := by
  rw [encode_address]
  cases c.encode <;> simp [Except.map]

variable {σ : Type} [Transport σ]

/-- Why nothing is sent. -/
inductive Withholds (ch : Channel) (now : UInt64) (device : σ) (c : Command) : Prop
  | closed (h : ch.isClosed now = true)
  | absent (h : Transport.isConnected device = false)
  | refused {s : Session} {e : MessagingError} (secured : ch.session = some s)
      (h : (s.encrypt (ch.address c)).1 = .error e)
  | unencodable {e : ApduError} (plain : ch.session = none) (h : c.encode = .error e)

/-- What becomes of the session of a handle: it ends with the handle, and else goes on from a
counter value that hangs on how far the command has come. -/
inductive Advances (ch : Channel) (now : UInt64) (device : σ) (c : Command) (s : Session) :
    Option Session → Prop
  | closed (h : ch.isClosed now = true) : Advances ch now device c s none
  | absent (h : ch.isClosed now = false) (absent : Transport.isConnected device = false) :
      Advances ch now device c s (some (s.advance 0))
  | refused {e : MessagingError} (ready : ch.Ready now device)
      (h : (s.encrypt (ch.address c)).1 = .error e) :
      Advances ch now device c s (some (s.advance 1))
  | failed {w : Command} {wire : Bytes} {e : TransportError} (ready : ch.Ready now device)
      (h : (s.encrypt (ch.address c)).1 = .ok w) (encoded : w.encode = .ok wire)
      (sent : (Transport.transmit device wire).1 = .error e) :
      Advances ch now device c s (some (s.advance 1))
  | answered {w : Command} {wire answer : Bytes} (ready : ch.Ready now device)
      (h : (s.encrypt (ch.address c)).1 = .ok w) (encoded : w.encode = .ok wire)
      (sent : (Transport.transmit device wire).1 = .ok answer) :
      Advances ch now device c s (some (s.advance 2))

namespace Transmission

variable {ch ch' : Channel} {now : UInt64} {device after : σ} {c : Command} {s : Session}
  {sent : Option Bytes} {result : Except CardError Response}

theorem withholds (t : ch.Transmission now device c none (result, ch', after)) :
    ch.Withholds now device c := by
  cases t with
  | closed h => exact .closed h
  | absent _ h => exact .absent h
  | unencodable _ plain refused => exact .unencodable plain (encode_address_eq_error_iff.mp refused)
  | refused _ secured _ refusal =>
    exact .refused secured (congrArg (Except.mapError MessagingError.malformed) refusal)

theorem not_withholds {wire : Bytes}
    (t : ch.Transmission now device c (some wire) (result, ch', after)) :
    ¬ ch.Withholds now device c := by
  have ready := t.ready_of_sent rfl
  rintro (h | h | ⟨secured, h⟩ | ⟨plain, h⟩)
  · rw [ready.isOpen] at h
    cases h
  · rw [ready.connected] at h
    cases h
  · obtain ⟨hc, -⟩ := t.sent_of_secured secured rfl
    rw [Session.encrypt_of_protectable hc] at h
    cases h
  · cases t with
    | failed _ _ encoded | answered _ _ encoded =>
      rw [encode_address_eq_error_iff.mpr h] at encoded
      cases encoded
    | securedFailed _ secured | securedAnswered _ secured =>
      rw [plain] at secured
      cases secured

/-- Nothing is sent exactly if something stands against it. -/
theorem sent_eq_none_iff (t : ch.Transmission now device c sent (result, ch', after)) :
    sent = none ↔ ch.Withholds now device c := by
  cases sent with
  | none => exact iff_of_true rfl t.withholds
  | some wire => exact iff_of_false (by simp) t.not_withholds

theorem canonical (t : ch.Transmission now device c sent (result, ch', after)) {wire : Bytes}
    (hsent : sent = some wire) : ∃ w, Command.parse wire = .ok w ∧ w.encode = .ok wire := by
  cases t with
  | closed | absent | unencodable | refused => cases hsent
  | failed _ _ encoded | answered _ _ encoded =>
    cases hsent
    exact Command.canonical_of_encode encoded
  | securedFailed _ _ h | securedAnswered _ _ h =>
    cases hsent
    exact Command.canonical_of_encode (Session.encode_protectedForm h)

theorem advances (t : ch.Transmission now device c sent (result, ch', after))
    (secured : ch.session = some s) : ch.Advances now device c s ch'.session := by
  cases t with
  | closed h => exact .closed h
  | absent h absent =>
    have hsame : ch.session = some (s.advance 0) := by rw [secured, s.advance_zero]
    rw [hsame]
    exact .absent h absent
  | unencodable _ plain | failed _ plain | answered _ plain =>
    rw [plain] at secured
    cases secured
  | refused ready secured' _ refusal =>
    rw [secured'] at secured
    cases secured
    exact .refused ready (congrArg (Except.mapError MessagingError.malformed) refusal)
  | securedFailed ready secured' h hsent =>
    rw [secured'] at secured
    cases secured
    exact .failed ready (congrArg Prod.fst (Session.encrypt_of_protectable h))
      (Session.encode_protectedForm h) (congrArg Prod.fst hsent)
  | securedAnswered ready secured' h hsent =>
    rw [secured'] at secured
    cases secured
    rw [← s.advance_two]
    exact .answered ready (congrArg Prod.fst (Session.encrypt_of_protectable h))
      (Session.encode_protectedForm h) (congrArg Prod.fst hsent)

end Transmission

end Channel

namespace Card

variable {σ : Type} [Transport σ]

/-- What a command given to the channel `ch` under a handle does to a card. -/
structure Footprint (card : Card (Recorder σ)) (handle : Nat) (ch : Channel) (c : Command)
    (card' : Card (Recorder σ)) : Prop where
  wire : ∃ sent : Option Bytes, card'.device.sent = card.device.sent ++ sent.toList ∧
    (sent = none ↔ ch.Withholds card.epoch card.device c) ∧
    ∀ wire ∈ sent, ∃ w, Command.parse wire = .ok w ∧ w.encode = .ok wire
  session : ∃ ch', card'.handle? handle = some ch' ∧ (ch.session = none → ch'.session = none) ∧
    ∀ s, ch.session = some s → ch.Advances card.epoch card.device c s ch'.session
  others : ∀ {other : Nat} {ch₁ : Channel}, other ≠ handle → card.handle? other = some ch₁ →
    card'.handle? other = some ch₁
  keys : card'.keys = card.keys
  epoch : card'.epoch = card.epoch

namespace Footprint

variable {card card' : Card (Recorder σ)} {handle : Nat} {ch ch' : Channel} {c : Command}

theorem of_transmission {sent : Option Bytes} {result : Except CardError Response}
    {after : Recorder σ} (hch : card.handle? handle = some ch)
    (t : ch.Transmission card.epoch card.device c sent (result, ch', after)) :
    card.Footprint handle ch c (card.keep handle ch' after) where
  wire := ⟨sent, Recorder.sent_of_transmission t, t.sent_eq_none_iff, fun _ => t.canonical⟩
  session := by
    refine ⟨ch', handle?_keep_self hch, fun plain => ?_, fun s => t.advances⟩
    cases t with
    | closed | absent | unencodable | failed | answered => first | rfl | exact plain
    | refused _ secured | securedFailed _ secured | securedAnswered _ secured =>
      rw [plain] at secured
      cases secured
  others := fun hne h => (handle?_keep_of_ne hne.symm).trans h
  keys := keys_keep
  epoch := epoch_keep

/-- Channels that are opened besides leave the footprint as it is. -/
theorem append (h : card.Footprint handle ch c card') (more : List Channel) :
    card.Footprint handle ch c { card' with logical := card'.logical ++ more } where
  wire := h.wire
  session := by
    obtain ⟨ch', hch', hsession⟩ := h.session
    exact ⟨ch', handle?_append hch' more, hsession⟩
  others := fun hne hother => handle?_append (h.others hne hother) more
  keys := h.keys
  epoch := h.epoch

end Footprint

namespace BasicOpen

variable {card : Card (Recorder σ)} {handle : Nat} {ch : Channel} {c : Command}

theorem footprint_transmit (h : BasicOpen card) (hch : card.handle? handle = some ch) :
    card.Footprint handle ch c (card.step (.transmit handle c)).2 := by
  obtain ⟨sent, t⟩ := ch.exists_transmission card.epoch card.device c
  cases handle with
  | zero =>
    obtain rfl : card.basic = ch := Option.some.inj hch
    simp only [step, h.transmit]
    exact .of_transmission hch t
  | succ k =>
    have hchannel : card.channel (k + 1) = .ok ch := by
      rw [channel, show card.logical[k]? = some ch from hch]
    simp only [step, Card.transmit, onChannel_of_ok hchannel]
    exact .of_transmission hch t

theorem footprint_openLogical (h : BasicOpen card) :
    card.Footprint 0 card.basic manageOpen (card.step .openLogical).2 := by
  have htransmit := h.footprint_transmit (c := manageOpen) (show card.handle? 0 = _ from rfl)
  simp only [step, openLogical] at htransmit ⊢
  cases (card.transmit 0 manageOpen).1.bind assignedNumber with
  | error e => exact htransmit
  | ok n => exact htransmit.append _

end BasicOpen

/-- What a disconnect does to a card: in the next epoch, the request to close channels is given to
the basic channel. Then this loses its session and the card its keys, and the device is reset if
that is asked for. -/
def DisconnectFootprint (card : Card (Recorder σ)) (reset : Bool) (card' : Card (Recorder σ)) :
    Prop :=
  ∃ sent : Card (Recorder σ),
    { card with epoch := card.epoch + 1 }.Footprint 0 card.basic manageClose sent ∧
    card'.device.sent = sent.device.sent ∧
    card' =
      { sent with
        device := if reset then (Transport.reset sent.device).2 else sent.device
        basic := sent.basic.endSession
        keys := none }

theorem footprint_disconnect (card : Card (Recorder σ)) (reset : Bool) :
    card.DisconnectFootprint reset (card.step (.disconnect reset)).2 := by
  obtain ⟨wire, t⟩ := card.basic.exists_transmission (card.epoch + 1) card.device manageClose
  rcases htransmit : card.basic.transmit (card.epoch + 1) card.device manageClose with
    ⟨result, ch', after⟩
  rw [htransmit] at t
  rw [step_disconnect htransmit]
  let next : Card (Recorder σ) := { card with epoch := card.epoch + 1 }
  refine ⟨next.keep 0 ch' after, .of_transmission rfl t, ?_, rfl⟩
  cases reset <;> rfl

/-- **Footprints.** In every state that a card can reach, a command given to any handle does what
its footprint says, and nothing else. So does the request to open a channel, on the basic channel,
and the request that a disconnect begins with. -/
theorem footprints (device : Recorder σ) (settings : CardSettings)
    (steps : List (Step (Recorder σ))) :
    let card := (fresh device settings).run steps
    (∀ handle ch c, card.handle? handle = some ch →
      card.Footprint handle ch c (card.step (.transmit handle c)).2) ∧
    card.Footprint 0 card.basic manageOpen (card.step .openLogical).2 ∧
    ∀ reset, card.DisconnectFootprint reset (card.step (.disconnect reset)).2 := by
  intro card
  have h : BasicOpen card := .run device settings steps
  refine ⟨?_, h.footprint_openLogical, ?_⟩
  · intro handle ch c hch
    exact h.footprint_transmit hch
  · intro reset
    exact footprint_disconnect card reset

end Card

end SmartCard
