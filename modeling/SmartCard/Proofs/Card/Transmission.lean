import SmartCard.Card.Channel
import SmartCard.Proofs.Messaging.CommandForm
import SmartCard.Transport.Recorder

/-!
# Transmission, case by case

`Channel.Transmission` lists all that can come of a command given to a channel: what the device is
sent, what is answered, and what becomes of the channel. `Channel.exists_transmission`: nothing else
can happen.
-/

namespace SmartCard

/-- The wire form of a command that a session protects next. -/
def Session.wire (s : Session) (c : Command) : Bytes :=
  (s.keys.protectedForm s.counter.next c).encodeFields

theorem Session.encode_protectedForm {s : Session} {c : Command} (h : c.Protectable) :
    (s.keys.protectedForm s.counter.next c).encode = .ok (s.wire c) :=
  (SessionKeys.encodable_protectedForm h).encode

namespace Exchange

variable {σ : Type} [Transport σ] {session : Session} {device after : σ} {c : Command}

theorem secured_of_not_protectable (h : ¬ c.Protectable) :
    ∃ e, session.keys.protect session.counter.next c = .error e ∧
      secured session device c = (.error (.messaging (.malformed e)), session.step, device) := by
  obtain ⟨e, he⟩ := @SessionKeys.protect_of_not_protectable session.keys session.counter.next c h
  refine ⟨e, he, ?_⟩
  unfold secured Session.encrypt
  simp only [show session.step.keys.protect session.step.counter c = .error e from he]
  rfl

/-- Once the command is protected, what comes of it is up to the device. -/
theorem secured_of_protectable (h : c.Protectable) :
    secured session device c =
      match Transport.transmit device (session.wire c) with
      | (.error e, device) => (.error (.transport e), session.step, device)
      | (.ok answer, device) =>
        ((session.keys.unprotect session.step.step.counter answer).mapError .messaging,
          session.step.step, device) := by
  have hprotect : session.step.keys.protect session.step.counter c =
      .ok (session.keys.protectedForm session.counter.next c) :=
    SessionKeys.protect_of_protectable h
  have hencode := (@SessionKeys.encodable_protectedForm session.keys session.counter.next c h).encode
  unfold secured Session.encrypt
  simp only [hprotect, Except.mapError, hencode]
  rfl

theorem secured_of_answered {answer : Bytes} (h : c.Protectable)
    (hsent : Transport.transmit device (session.wire c) = (.ok answer, after)) :
    secured session device c =
      ((session.keys.unprotect session.step.step.counter answer).mapError .messaging,
        session.step.step, after) := by
  rw [secured_of_protectable h, hsent]

end Exchange

namespace Channel

variable {σ : Type} [Transport σ]

/-- The handle is open and the device connected. -/
structure Ready (ch : Channel) (now : UInt64) (device : σ) : Prop where
  isOpen : ch.isClosed now = false
  connected : Transport.isConnected device = true

/-- What becomes of a command: the bytes that the device is sent, if any, and then the answer, the
channel and the device. -/
inductive Transmission (ch : Channel) (now : UInt64) (device : σ) (c : Command) :
    Option Bytes → Except CardError Response × Channel × σ → Prop
  | closed (h : ch.isClosed now = true) :
      Transmission ch now device c none (.error (.channelClosed ch.number), ch.shut, device)
  | absent (h : ch.isClosed now = false) (absent : Transport.isConnected device = false) :
      Transmission ch now device c none (.error .notConnected, ch, device)
  | unencodable {e : ApduError} (ready : ch.Ready now device) (plain : ch.session = none)
      (refused : (ch.address c).encode = .error e) :
      Transmission ch now device c none (.error (.apdu e), ch, device)
  | failed {wire : Bytes} {e : TransportError} {after : σ} (ready : ch.Ready now device)
      (plain : ch.session = none) (encoded : (ch.address c).encode = .ok wire)
      (sent : Transport.transmit device wire = (.error e, after)) :
      Transmission ch now device c (some wire) (.error (.transport e), ch, after)
  | answered {wire answer : Bytes} {after : σ} (ready : ch.Ready now device)
      (plain : ch.session = none) (encoded : (ch.address c).encode = .ok wire)
      (sent : Transport.transmit device wire = (.ok answer, after)) :
      Transmission ch now device c (some wire) ((Response.parse answer).mapError .apdu, ch, after)
  | refused {s : Session} {e : Malformation} (ready : ch.Ready now device)
      (secured : ch.session = some s) (h : ¬ (ch.address c).Protectable)
      (refusal : s.keys.protect s.counter.next (ch.address c) = .error e) :
      Transmission ch now device c none
        (.error (.messaging (.malformed e)), { ch with session := some s.step }, device)
  | securedFailed {s : Session} {e : TransportError} {after : σ} (ready : ch.Ready now device)
      (secured : ch.session = some s) (h : (ch.address c).Protectable)
      (sent : Transport.transmit device (s.wire (ch.address c)) = (.error e, after)) :
      Transmission ch now device c (some (s.wire (ch.address c)))
        (.error (.transport e), { ch with session := some s.step }, after)
  | securedAnswered {s : Session} {answer : Bytes} {after : σ} (ready : ch.Ready now device)
      (secured : ch.session = some s) (h : (ch.address c).Protectable)
      (sent : Transport.transmit device (s.wire (ch.address c)) = (.ok answer, after)) :
      Transmission ch now device c (some (s.wire (ch.address c)))
        ((s.keys.unprotect s.step.step.counter answer).mapError .messaging,
          { ch with session := some s.step.step }, after)

variable {ch : Channel} {now : UInt64} {device : σ} {c : Command}

theorem transmit_of_closed (h : ch.isClosed now = true) :
    ch.transmit now device c = (.error (.channelClosed ch.number), ch.shut, device) := by
  unfold transmit
  exact if_pos h

theorem transmit_of_absent (h : ch.isClosed now = false)
    (absent : Transport.isConnected device = false) :
    ch.transmit now device c = (.error .notConnected, ch, device) := by
  unfold transmit
  rw [if_neg (by simp [h]), if_pos (by simp [absent])]

theorem transmit_of_plain (ready : ch.Ready now device) (plain : ch.session = none) :
    ch.transmit now device c =
      ((Exchange.plain device (ch.address c)).1, ch, (Exchange.plain device (ch.address c)).2) := by
  unfold transmit
  rw [if_neg (by simp [ready.isOpen]), if_neg (by simp [ready.connected]), plain]

theorem transmit_of_secured {s : Session} (ready : ch.Ready now device)
    (secured : ch.session = some s) :
    ch.transmit now device c =
      ((Exchange.secured s device (ch.address c)).1,
        { ch with session := some (Exchange.secured s device (ch.address c)).2.1 },
        (Exchange.secured s device (ch.address c)).2.2) := by
  unfold transmit
  rw [if_neg (by simp [ready.isOpen]), if_neg (by simp [ready.connected]), secured]

theorem exists_transmission_of_plain (ready : ch.Ready now device) (plain : ch.session = none) :
    ∃ sent, Transmission ch now device c sent (ch.transmit now device c) := by
  rw [transmit_of_plain ready plain]
  unfold Exchange.plain
  cases hencode : (ch.address c).encode with
  | error e => exact ⟨none, .unencodable ready plain hencode⟩
  | ok wire =>
    rcases hsent : Transport.transmit device wire with ⟨e | answer, after⟩
    · simp only [hsent]
      exact ⟨some wire, .failed ready plain hencode hsent⟩
    · simp only [hsent]
      exact ⟨some wire, .answered ready plain hencode hsent⟩

theorem exists_transmission_of_secured {s : Session} (ready : ch.Ready now device)
    (secured : ch.session = some s) :
    ∃ sent, Transmission ch now device c sent (ch.transmit now device c) := by
  rw [transmit_of_secured ready secured]
  by_cases h : (ch.address c).Protectable
  · rw [Exchange.secured_of_protectable h]
    rcases hsent : Transport.transmit device (s.wire (ch.address c)) with ⟨e | answer, after⟩
    · exact ⟨_, .securedFailed ready secured h hsent⟩
    · exact ⟨_, .securedAnswered ready secured h hsent⟩
  · obtain ⟨e, refusal, he⟩ := @Exchange.secured_of_not_protectable σ _ s device (ch.address c) h
    rw [he]
    exact ⟨none, .refused ready secured h refusal⟩

/-- **Inversion.** One of the cases applies to every transmission. -/
theorem exists_transmission (ch : Channel) (now : UInt64) (device : σ) (c : Command) :
    ∃ sent, Transmission ch now device c sent
      ((ch.transmit now device c).1, (ch.transmit now device c).2.1,
        (ch.transmit now device c).2.2) := by
  by_cases hclosed : ch.isClosed now = true
  · rw [transmit_of_closed hclosed]
    exact ⟨none, .closed hclosed⟩
  · have hopen : ch.isClosed now = false := by simpa using hclosed
    by_cases hconnected : Transport.isConnected device = true
    · have ready : ch.Ready now device := ⟨hopen, hconnected⟩
      cases hsession : ch.session with
      | none => exact exists_transmission_of_plain ready hsession
      | some s => exact exists_transmission_of_secured ready hsession
    · have habsent : Transport.isConnected device = false := by simpa using hconnected
      rw [transmit_of_absent hopen habsent]
      exact ⟨none, .absent hopen habsent⟩

namespace Transmission

variable {sent : Option Bytes} {result : Except CardError Response} {ch' : Channel} {after : σ}

/-- The device changes only by what it is sent. -/
theorem device_eq (h : Transmission ch now device c sent (result, ch', after)) :
    after = match sent with
      | none => device
      | some wire => (Transport.transmit device wire).2 := by
  cases h with
  | closed | absent | unencodable | refused => rfl
  | failed _ _ _ sent => simp only [sent]
  | answered _ _ _ sent => simp only [sent]
  | securedFailed _ _ _ sent => simp only [sent]
  | securedAnswered _ _ _ sent => simp only [sent]

/-- The handle keeps naming the channel it named. -/
theorem number_epoch (h : Transmission ch now device c sent (result, ch', after)) :
    ch'.number = ch.number ∧ ch'.epoch = ch.epoch := by
  cases h <;> exact ⟨rfl, rfl⟩

/-- What is sent while a session is attached is the wire form of the session. -/
theorem sent_of_secured {s : Session} (secured : ch.session = some s)
    (h : Transmission ch now device c sent (result, ch', after)) {wire : Bytes}
    (hsent : sent = some wire) : (ch.address c).Protectable ∧ wire = s.wire (ch.address c) := by
  cases h with
  | closed | absent | unencodable | refused => cases hsent
  | failed _ plain | answered _ plain =>
    rw [plain] at secured
    cases secured
  | securedFailed _ secured' h | securedAnswered _ secured' h =>
    rw [secured'] at secured
    cases secured
    exact ⟨h, (Option.some.inj hsent).symm⟩

/-- An open handle stays as it is, but for the counter of its session. -/
theorem session_of_open (hopen : ch.isClosed now = false)
    (h : Transmission ch now device c sent (result, ch', after)) :
    ch' = { ch with session := ch'.session } ∧
      ch'.session.map Session.keys = ch.session.map Session.keys := by
  cases h with
  | closed h =>
    rw [h] at hopen
    cases hopen
  | absent | unencodable | failed | answered => exact ⟨rfl, rfl⟩
  | refused _ secured | securedFailed _ secured | securedAnswered _ secured =>
    rw [secured]
    exact ⟨rfl, rfl⟩

end Transmission

end Channel

/-! ## What is recorded -/

namespace Recorder

variable {σ : Type} [Transport σ]

theorem sent_transmit (device : Recorder σ) (wire : Bytes) :
    (Transport.transmit device wire).2.sent = device.sent ++ [wire] := rfl

theorem sent_of_transmission {ch ch' : Channel} {now : UInt64} {device after : Recorder σ}
    {c : Command} {sent : Option Bytes} {result : Except CardError Response}
    (h : ch.Transmission now device c sent (result, ch', after)) :
    after.sent = device.sent ++ sent.toList := by
  rw [h.device_eq]
  cases sent with
  | none => exact (List.append_nil _).symm
  | some wire => exact sent_transmit device wire

end Recorder

end SmartCard
