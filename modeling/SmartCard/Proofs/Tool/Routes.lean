import Mathlib
import SmartCard.Proofs.Apdu.Canonical
import SmartCard.Proofs.Apdu.Response
import SmartCard.Proofs.Card.Transmission
import SmartCard.Proofs.Hex
import SmartCard.Proofs.Messaging.SessionRun
import SmartCard.Proofs.Tool.Words
import SmartCard.Transport.Script

/-!
# Three routes to one exchange

A command goes through a session on a channel of a card, on the command line, or by calls on the
session itself. All three hang on the same question, whether the bytes wrap to a wire form
(`Session.WrapsTo`), and on what becomes of the answer afterwards; so they agree (`routes_agree`).
-/

namespace SmartCard

namespace Session

/-! ## The session on its own -/

/-- The bytes are a command, which the session protects next as `wire`. -/
def WrapsTo (s : Session) (bytes wire : Bytes) : Prop :=
  ∃ c, Command.parse bytes = .ok c ∧ c.Protectable ∧ s.wire c = wire

variable {s : Session} {bytes wire : Bytes}

theorem WrapsTo.encryptBytes (h : s.WrapsTo bytes wire) :
    s.encryptBytes bytes = (.ok wire, s.step) := by
  obtain ⟨c, hparse, hc, rfl⟩ := h
  unfold Session.encryptBytes
  simp only [hparse, encrypt_of_protectable hc, encode_protectedForm hc]
  rfl

theorem encryptBytes_of_not_wrapsTo (h : ∀ wire, ¬ s.WrapsTo bytes wire) :
    ∃ e, s.encryptBytes bytes = (.error e, s.step) := by
  unfold encryptBytes
  cases hparse : Command.parse bytes with
  | error e => exact ⟨_, rfl⟩
  | ok c =>
    obtain ⟨e, he⟩ := @encrypt_of_not_protectable s c fun hc => h _ ⟨c, hparse, hc, rfl⟩
    exact ⟨.malformed e, by simp only [he]⟩

/-- It does not matter whether the response is split before it is decrypted. -/
theorem decryptResponse_of_parse {r : Response} (h : Response.parse bytes = .ok r) :
    s.decryptResponse r = s.decrypt bytes := by
  unfold decryptResponse
  rw [Response.parse_eq_ok_iff.mp h]

end Session

/-! ## The channel -/

namespace Channel

variable {σ : Type} [Transport σ] {ch : Channel} {now : UInt64} {device after : σ} {s : Session}
  {bytes wire answer : Bytes}

/-- A parsed command has no empty data, so the basic channel sends it as it is. -/
theorem address_of_parse {c : Command} (hbasic : ch.number.isBasic = true)
    (hparse : Command.parse bytes = .ok c) : ch.address c = c := by
  obtain ⟨l, hl⟩ := Command.parse_eq_ok_iff.mp hparse
  unfold address
  rw [if_pos hbasic, hl.normalized]

theorem transmitBytes_of_wrapsTo (ready : ch.Ready now device) (hbasic : ch.number.isBasic = true)
    (secured : ch.session = some s) (h : s.WrapsTo bytes wire)
    (answered : Transport.transmit device wire = (.ok answer, after)) :
    ch.transmitBytes now device bytes =
      (((s.step.decrypt answer).1.mapError .messaging).map Response.encode,
        { ch with session := some s.step.step }, after) := by
  obtain ⟨c, hparse, hc, rfl⟩ := h
  unfold transmitBytes
  rw [hparse]
  simp only [transmit_of_secured ready secured, address_of_parse hbasic hparse,
    Exchange.secured_of_answered hc answered]
  rfl

theorem transmitBytes_of_not_wrapsTo (ready : ch.Ready now device)
    (hbasic : ch.number.isBasic = true) (secured : ch.session = some s)
    (h : ∀ wire, ¬ s.WrapsTo bytes wire) :
    ∃ e ch', ch.transmitBytes now device bytes = (.error e, ch', device) := by
  unfold transmitBytes
  cases hparse : Command.parse bytes with
  | error e => exact ⟨_, _, rfl⟩
  | ok c =>
    have hc : ¬ c.Protectable := fun hc => h _ ⟨c, hparse, hc, rfl⟩
    obtain ⟨e, -, he⟩ := @Exchange.secured_of_not_protectable _ _ s device c hc
    simp only [transmit_of_secured ready secured, address_of_parse hbasic hparse, he]
    exact ⟨_, _, rfl⟩

end Channel

/-! ## The command line -/

namespace Tool

open Session

/-- What the tool comes to on a command line. -/
def answer (words : List String) : Except UsageError (Except ToolError (List String)) :=
  (Invocation.ofArguments words).map Invocation.run

/-- The texts of a command line that asks for an exchange. -/
structure ExchangeLine where
  enc : String
  mac : String
  counter : String
  command : String
  response : String

def ExchangeLine.words (line : ExchangeLine) : List String :=
  "exchange" :: (sessionWords line.enc line.mac line.counter ++ [line.command, line.response])

/-- The texts are read as these values. -/
structure ExchangeLine.Spells (line : ExchangeLine) (s : Session) (command response : Bytes) :
    Prop where
  enc : Hex.read line.enc = .ok s.keys.enc.toBytes
  mac : Hex.read line.mac = .ok s.keys.mac.toBytes
  counter : readNumber Counter.count line.counter = some s.counter.toNat
  command : Hex.read line.command = .ok command
  response : Hex.read line.response = .ok response

/-- Texts in plain spelling. -/
def ExchangeLine.spelling (s : Session) (command response : Bytes) : ExchangeLine where
  enc := Hex.print s.keys.enc.toBytes
  mac := Hex.print s.keys.mac.toBytes
  counter := s.counter.toNat.repr
  command := Hex.print command
  response := Hex.print response

variable {line : ExchangeLine} {s : Session} {text answerText : String}
  {command response wire : Bytes}

/-- No session, command or response is out of reach of the command line. -/
theorem ExchangeLine.spells_spelling (s : Session) (command response : Bytes) :
    (spelling s command response).Spells s command response where
  enc := Hex.read_print _
  mac := Hex.read_print _
  counter := readNumber_repr s.counter.isLt
  command := Hex.read_print command
  response := Hex.read_print response

theorem readHex_of_read (h : Hex.read text = .ok command) : readHex text = .ok command := by
  unfold readHex
  rw [h]
  rfl

theorem openSession_of_read {options : SessionOptions}
    (henc : Hex.read options.enc = .ok s.keys.enc.toBytes)
    (hmac : Hex.read options.mac = .ok s.keys.mac.toBytes)
    (hcounter : options.counter = s.counter) : openSession options = .ok s := by
  unfold openSession
  rw [readHex_of_read henc, readHex_of_read hmac, hcounter]
  rfl

theorem ExchangeLine.Spells.answer (h : line.Spells s command response) :
    Tool.answer line.words = .ok (exchange s line.command line.response) := by
  have harguments := ofArguments_exchange (Hex.head?_of_read h.enc) (Hex.head?_of_read h.mac)
    h.counter (Hex.head?_of_read h.command) (Hex.head?_of_read h.response)
  have hopen := @openSession_of_read s ⟨line.enc, line.mac, .ofNat 128 s.counter.toNat⟩ h.enc h.mac
    (BitVec.ofNat_toNat 128 s.counter)
  unfold Tool.answer ExchangeLine.words
  rw [harguments]
  show Except.ok (openSession _ >>= _) = _
  rw [hopen]
  rfl

theorem readCommand_of_read (h : Hex.read text = .ok command) :
    readCommand text = (Command.parse command).mapError .apdu := by
  unfold readCommand
  rw [readHex_of_read h]
  rfl

theorem exchange_of_parse {c : Command} (hparse : Command.parse command = .ok c)
    (hcommand : Hex.read text = .ok command) :
    exchange s text answerText = do
      let wrapped ← (s.encrypt c).1.mapError .messaging
      let plain ← ((s.encrypt c).2.decrypt (← readHex answerText)).1.mapError .messaging
      return ["> " ++ (← printCommand wrapped), "< " ++ plain.display] := by
  unfold exchange
  rw [readCommand_of_read hcommand, hparse]
  rfl

theorem exchange_of_wrapsTo (h : s.WrapsTo command wire) (hcommand : Hex.read text = .ok command)
    (hresponse : Hex.read answerText = .ok response) :
    exchange s text answerText =
      ((s.step.decrypt response).1.mapError .messaging).map fun r =>
        ["> " ++ Hex.print wire, "< " ++ r.display] := by
  obtain ⟨c, hparse, hc, rfl⟩ := h
  have hprint : printCommand (s.keys.protectedForm s.counter.next c) =
      .ok (Hex.print (s.wire c)) := by
    unfold printCommand
    rw [encode_protectedForm hc]
    rfl
  rw [exchange_of_parse hparse hcommand, encrypt_of_protectable hc, readHex_of_read hresponse]
  show ((s.step.decrypt response).1.mapError .messaging >>= fun plain =>
    printCommand (s.keys.protectedForm s.counter.next c) >>= fun line => _) = _
  rw [hprint]
  cases (s.step.decrypt response).1 <;> rfl

theorem exchange_of_not_wrapsTo (answerText : String) (h : ∀ wire, ¬ s.WrapsTo command wire)
    (hcommand : Hex.read text = .ok command) : ∃ e, exchange s text answerText = .error e := by
  cases hparse : Command.parse command with
  | error e =>
    refine ⟨.apdu e, ?_⟩
    unfold exchange
    rw [readCommand_of_read hcommand, hparse]
    rfl
  | ok c =>
    obtain ⟨e, he⟩ := @encrypt_of_not_protectable s c fun hc => h _ ⟨c, hparse, hc, rfl⟩
    refine ⟨.messaging (.malformed e), ?_⟩
    rw [exchange_of_parse hparse hcommand, he]
    rfl

end Tool

/-! ## Agreement -/

/-- What the routes come to, in turn: the reply of the channel, the bytes sent, the answer of the
tool, and of the session the wire form and the plain response. -/
inductive Agreement : Except CardError Bytes → List Bytes →
    Except UsageError (Except ToolError (List String)) → Except MessagingError Bytes →
    Except MessagingError Response → Prop
  /-- Nothing is sent. -/
  | refused (e : CardError) (e' : ToolError) (e'' : MessagingError)
      (plain : Except MessagingError Response) :
      Agreement (.error e) [] (.ok (.error e')) (.error e'') plain
  | rejected (wire : Bytes) (e : MessagingError) :
      Agreement (.error (.messaging e)) [wire] (.ok (.error (.messaging e))) (.ok wire) (.error e)
  | accepted (wire : Bytes) (r : Response) :
      Agreement (.ok r.encode) [wire]
        (.ok (.ok ["> " ++ Hex.print wire, "< " ++ r.display])) (.ok wire) (.ok r)

theorem agreement_of_plain (wire : Bytes) (plain : Except MessagingError Response) :
    Agreement ((plain.mapError .messaging).map Response.encode) [wire]
      (.ok ((plain.mapError .messaging).map fun r =>
        ["> " ++ Hex.print wire, "< " ++ r.display])) (.ok wire) plain := by
  cases plain with
  | error e => exact .rejected wire e
  | ok r => exact .accepted wire r

section

variable {σ : Type} [Transport σ] {ch : Channel} {now : UInt64} {device after : σ} {s : Session}
  {command response wire : Bytes} {line : Tool.ExchangeLine}

theorem agreement_of_wrapsTo (ready : ch.Ready now device) (hbasic : ch.number.isBasic = true)
    (secured : ch.session = some s) (spelt : line.Spells s command response)
    (h : s.WrapsTo command wire)
    (answered : Transport.transmit device wire = (.ok response, after)) :
    Agreement (ch.transmitBytes now device command).1 [wire] (Tool.answer line.words)
      (s.encryptBytes command).1 (s.step.decrypt response).1 := by
  rw [Channel.transmitBytes_of_wrapsTo ready hbasic secured h answered, spelt.answer,
    Tool.exchange_of_wrapsTo h spelt.command spelt.response, h.encryptBytes]
  exact agreement_of_plain wire _

theorem agreement_of_not_wrapsTo (ready : ch.Ready now device) (hbasic : ch.number.isBasic = true)
    (secured : ch.session = some s) (spelt : line.Spells s command response)
    (h : ∀ wire, ¬ s.WrapsTo command wire) (plain : Except MessagingError Response) :
    Agreement (ch.transmitBytes now device command).1 [] (Tool.answer line.words)
      (s.encryptBytes command).1 plain := by
  obtain ⟨e, ch', honline⟩ := Channel.transmitBytes_of_not_wrapsTo ready hbasic secured h
  obtain ⟨e', htool⟩ := Tool.exchange_of_not_wrapsTo line.response h spelt.command
  obtain ⟨e'', hwrapped⟩ := Session.encryptBytes_of_not_wrapsTo h
  rw [honline, spelt.answer, htool, hwrapped]
  exact .refused e e' e'' plain

end

/-- **Three routes, one result.** Over a device that answers `response`, the basic channel, the
command line and the session itself make the same of a command: all of them fail or none, with the
same wire form, plain response and fault in the response. Once a wire form was sent, two counter
values are used up. It does not matter whether the response is split before it is decrypted. -/
theorem routes_agree {σ : Type} [Transport σ] (s : Session) (command response : Bytes)
    (epoch now : UInt64) (device : Recorder σ) (line : Tool.ExchangeLine)
    (connected : Transport.isConnected device = true)
    (answers : ∀ wire, (Transport.transmit device wire).1 = .ok response)
    (spelt : line.Spells s command response) :
    let ch : Channel := { number := .basic, epoch, session := some s }
    let online := ch.transmitBytes now device command
    let wrapped := s.encryptBytes command
    let plain := wrapped.2.decrypt response
    (∃ sent, online.2.2.sent = device.sent ++ sent ∧
      Agreement online.1 sent (Tool.answer line.words) wrapped.1 plain.1) ∧
    (∀ wire, wrapped.1 = .ok wire →
      online.2.1.session = some plain.2 ∧ plain.2 = ⟨s.keys, s.counter + 2⟩) ∧
    (2 ≤ response.length →
      ∃ r, Response.parse response = .ok r ∧ wrapped.2.decryptResponse r = plain) := by
  intro ch online wrapped plain
  have ready : ch.Ready now device := ⟨rfl, connected⟩
  have hsplit (h : 2 ≤ response.length) :
      ∃ r, Response.parse response = .ok r ∧ wrapped.2.decryptResponse r = plain := by
    obtain ⟨r, hparse⟩ := Response.exists_parse h
    exact ⟨r, hparse, Session.decryptResponse_of_parse hparse⟩
  by_cases h : ∃ wire, s.WrapsTo command wire
  · obtain ⟨wire, h⟩ := h
    have answered : Transport.transmit device wire =
        (.ok response, (Transport.transmit device wire).2) := Prod.ext (answers wire) rfl
    have honline : online = _ := Channel.transmitBytes_of_wrapsTo ready rfl rfl h answered
    have hplain : plain = s.step.decrypt response := by
      show wrapped.2.decrypt response = _
      rw [show wrapped = _ from h.encryptBytes]
    refine ⟨⟨[wire], ?_, ?_⟩, ?_, hsplit⟩
    · rw [honline]
      exact Recorder.sent_transmit device wire
    · rw [hplain]
      exact agreement_of_wrapsTo ready rfl rfl spelt h answered
    · intro _ _
      rw [honline, hplain]
      exact ⟨rfl, s.step_step⟩
  · have hnot : ∀ wire, ¬ s.WrapsTo command wire := not_exists.mp h
    obtain ⟨e, ch', honline⟩ := Channel.transmitBytes_of_not_wrapsTo ready rfl rfl hnot
    obtain ⟨e', hwrapped⟩ := Session.encryptBytes_of_not_wrapsTo hnot
    refine ⟨⟨[], ?_, agreement_of_not_wrapsTo ready rfl rfl spelt hnot _⟩, ?_, hsplit⟩
    · rw [show online = _ from honline]
      exact (List.append_nil _).symm
    · intro wire hwire
      rw [show wrapped = _ from hwrapped] at hwire
      cases hwire

/-- A command without data, and its answer without a payload. -/
theorem routes_agree_header_only :
    let s : Session :=
      ⟨⟨Counter.block 0x68406B4162100563D9C901A6154D2901,
        Counter.block 0x73FF268784F72AF833FDC9464049AFC9⟩, 0⟩
    let answer : Bytes := [0x99, 0x02, 0x90, 0x00, 0x8E, 0x08, 0xA8, 0x95, 0x70, 0xA6, 0x86, 0x64,
      0xA7, 0xD6, 0x90, 0x00]
    let device : Recorder ScriptedDevice := { device := { script := [⟨.ok answer, false⟩] } }
    let ch : Channel := { number := .basic, epoch := 0, session := some s }
    ∃ sent, (ch.transmitBytes 0 device [1, 2, 3, 4]).2.2.sent = sent ∧
      Agreement (ch.transmitBytes 0 device [1, 2, 3, 4]).1 sent
        (.ok (.ok ["> 0D0203040A8E08D92B4FDDC2BBED8C00", "< 9000 (Success)"]))
        (s.encryptBytes [1, 2, 3, 4]).1
        ((s.encryptBytes [1, 2, 3, 4]).2.decrypt answer).1 := by
  intro s answer device ch
  have hspells := Tool.ExchangeLine.spells_spelling s [1, 2, 3, 4] answer
  have h := routes_agree s [1, 2, 3, 4] answer 0 0 device _ rfl (fun _ => rfl) hspells
  have hlines : Tool.answer (Tool.ExchangeLine.spelling s [1, 2, 3, 4] answer).words =
      .ok (.ok ["> 0D0203040A8E08D92B4FDDC2BBED8C00", "< 9000 (Success)"]) := by
    cbv
  rw [hlines] at h
  exact h.1

end SmartCard
