import SmartCard.Proofs.Card.Effect
import SmartCard.Proofs.Messaging.Capacity

/-!
# Requests on the basic channel

On the basic channel the card is asked for another channel (`manageOpen`) or to close all others
(`manageClose`). `openWire` and `closeWire` spell these requests out, in the clear and in a session.

`Card.BasicOpen.device_of_request`: a connected device is sent exactly these bytes, any other
nothing.
-/

namespace SmartCard

/-- A command without data, in a session: the object of its expected length, if it has one, and the
MAC over the header and this object. -/
theorem Session.wire_of_no_data (s : Session) {c : Command} (hbody : c.body = [])
    (hshort : ∀ le ∈ c.le, le ≤ 256) :
    let header := SessionKeys.protectedHeader c
    let objects := DataObject.encodeAll (SessionKeys.expectedObjects c.le)
    s.wire c = header ++ bigEndian 1 (objects.length + 10) ++
      (objects ++ 0x8E :: 0x08 :: Mac.compute s.keys.mac s.counter.next.block [header, objects]) ++
        [0x00] := by
  intro header objects
  let mac := Mac.compute s.keys.mac s.counter.next.block [header, objects]
  have hmac : mac.length = 8 := Mac.length_compute _ _ _
  have hobjects : s.keys.authenticatedBytes s.counter.next c = objects := by
    unfold SessionKeys.authenticatedBytes
    rw [hbody, SessionKeys.dataObject_nil, List.nil_append]
  have hprotected : (s.keys.protectedForm s.counter.next c).body =
      objects ++ 0x8E :: 0x08 :: mac := by
    rw [SessionKeys.body_protectedForm, SessionKeys.protectedBody, hobjects]
    show objects ++ 0x8E :: (DataObject.lengthField mac.length ++ mac) = _
    rw [hmac]
    rfl
  have hlength : (objects ++ 0x8E :: 0x08 :: mac).length = objects.length + 10 := by
    rw [List.length_append, List.length_cons, List.length_cons, hmac]
  have hfits : ¬ (255 < objects.length + 10 ∨ ∃ le ∈ c.le, 256 < le) := by
    rintro (hlong | ⟨le, hle, hlong⟩)
    · have hsize : objects.length = expectedObjectSize c.le :=
        SessionKeys.length_encodeAll_expectedObjects_eq c.le
      have := expectedObjectSize_le c.le
      omega
    · exact absurd (hshort le hle) (Nat.not_le.mpr hlong)
  rw [Session.wire, SessionKeys.encodeFields_protectedForm_eq, hprotected, hlength, if_neg hfits]
  rfl

/-! ## The requests -/

/-- What the basic channel sends for a command: as it is, or protected in a session. -/
structure Command.SentAs (c : Command) (wire : Option Session → Bytes) : Prop where
  normalized : c.normalized = c
  protectable : c.Protectable
  clear : c.encode = .ok (wire none)
  secured : ∀ s : Session, s.wire c = wire (some s)

/-- The request to open a channel, as the basic channel sends it: as it is, or with its expected
length in an object and a MAC in a session. -/
def openWire : Option Session → Bytes
  | none => [0x00, 0x70, 0x00, 0x00, 0x01]
  | some s =>
    [0x0C, 0x70, 0x00, 0x00, 0x0D, 0x97, 0x01, 0x01, 0x8E, 0x08] ++
      Mac.compute s.keys.mac s.counter.next.block
        [[0x0C, 0x70, 0x00, 0x00], [0x97, 0x01, 0x01]] ++ [0x00]

/-- The request to close channels, as the basic channel sends it: as it is, or with a MAC in a
session. -/
def closeWire : Option Session → Bytes
  | none => [0x00, 0x70, 0x80, 0x00]
  | some s =>
    [0x0C, 0x70, 0x80, 0x00, 0x0A, 0x8E, 0x08] ++
      Mac.compute s.keys.mac s.counter.next.block [[0x0C, 0x70, 0x80, 0x00], []] ++ [0x00]

theorem manageOpen_sentAs : manageOpen.SentAs openWire where
  normalized := rfl
  protectable := by decide
  clear := rfl
  secured s := s.wire_of_no_data rfl (by decide)

theorem manageClose_sentAs : manageClose.SentAs closeWire where
  normalized := rfl
  protectable := by decide
  clear := rfl
  secured s := s.wire_of_no_data rfl (by decide)

/-! ## On the basic channel -/

namespace Card.BasicOpen

variable {σ : Type} [Transport σ] {card : Card σ} {c : Command} {wire : Option Session → Bytes}

omit [Transport σ] in
theorem address_eq (h : BasicOpen card) (c : Command) : card.basic.address c = c.normalized := by
  unfold Channel.address
  rw [h.number]
  rfl

/-- A request is sent exactly if the device is connected. -/
theorem sent_of_request (h : BasicOpen card) (hc : c.SentAs wire) {now : UInt64}
    {sent : Option Bytes} {result : Except CardError Response} {ch' : Channel} {after : σ}
    (t : card.basic.Transmission now card.device c sent (result, ch', after)) :
    sent = if card.isPresent then some (wire card.basic.session) else none := by
  have haddress : card.basic.address c = c := (h.address_eq c).trans hc.normalized
  have hpresent (ready : card.basic.Ready now card.device) : card.isPresent = true :=
    ready.connected
  cases t with
  | closed hclosed =>
    rw [h.isClosed now] at hclosed
    cases hclosed
  | absent _ absent => exact (if_neg (by simpa [isPresent] using absent)).symm
  | unencodable ready _ refused =>
    rw [haddress, hc.clear] at refused
    cases refused
  | failed ready plain encoded | answered ready plain encoded =>
    rw [haddress, hc.clear] at encoded
    cases encoded
    rw [if_pos (hpresent ready), plain]
  | refused _ _ hnot =>
    rw [haddress] at hnot
    exact absurd hc.protectable hnot
  | securedFailed ready secured | securedAnswered ready secured =>
    rw [if_pos (hpresent ready), secured, haddress, hc.secured]

theorem device_of_request (h : BasicOpen card) (hc : c.SentAs wire) :
    (card.transmit 0 c).2.device =
      if card.isPresent then (Transport.transmit card.device (wire card.basic.session)).2
      else card.device := by
  obtain ⟨sent, t⟩ := card.basic.exists_transmission card.epoch card.device c
  have hsent := h.sent_of_request hc t
  rw [h.transmit, device_keep, t.device_eq]
  split at hsent
  next present =>
    subst hsent
    exact (if_pos present).symm
  next absent =>
    subst hsent
    exact (if_neg absent).symm

end Card.BasicOpen

end SmartCard
