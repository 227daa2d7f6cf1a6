import SmartCard.Proofs.Card.Addressing
import SmartCard.Proofs.Tool.Routes

/-!
# Transparency in the clear

Without a session a command goes to the card, and is printed by the tool, as it is encoded, but for
the class byte. Both ways address it alike: what the tool prints for a channel is sent as it stands
on a handle of this channel. `transparent_in_clear` puts both together.
-/

namespace SmartCard

theorem LogicalChannel.ofByte_number (n : LogicalChannel) :
    ofByte (.ofNat n.number) = .ok n := by
  have hall : ∀ i : Fin 20, ofByte (.ofNat i) = .ok ⟨i⟩ := by decide
  exact hall n.number

/-! ## The command line -/

namespace Tool

variable {text : String} {bytes wire : Bytes} {c : Command}

theorem channel_of_encode (htext : Hex.read text = .ok bytes) (hparse : Command.parse bytes = .ok c)
    (n : LogicalChannel) (hwire : (n.address c).encode = .ok wire) :
    channel text (.ofNat n.number) = .ok (Hex.print wire) := by
  have hcommand : readCommand text = .ok c := by
    rw [readCommand_of_read htext, hparse]
    rfl
  have haddressed : c.addressedTo (.ofNat n.number) = .ok (n.address c) := by
    unfold Command.addressedTo
    rw [n.ofByte_number]
    rfl
  unfold channel
  rw [hcommand]
  show ((c.addressedTo (.ofNat n.number)).mapError ToolError.apdu >>= printCommand) = _
  rw [haddressed]
  show printCommand (n.address c) = _
  unfold printCommand
  rw [hwire]
  rfl

theorem answer_channel (htext : Hex.read text = .ok bytes) (hparse : Command.parse bytes = .ok c)
    (n : LogicalChannel) (hwire : (n.address c).encode = .ok wire) :
    answer ["channel", text, n.display] = .ok (.ok [Hex.print wire]) := by
  have harguments : Invocation.ofArguments ["channel", text, n.display] =
      .ok (.channel text (.ofNat n.number)) :=
    ofArguments_channel (Hex.head?_of_read htext) (isPlain_repr _) (readByte_repr (by omega))
  unfold answer
  rw [harguments]
  show Except.ok (channel text (.ofNat n.number) >>= _) = _
  rw [channel_of_encode htext hparse n hwire]
  rfl

end Tool

/-! ## Both ways -/

namespace Channel

variable {σ : Type} [Transport σ] {ch : Channel} {now : UInt64} {device : Recorder σ}

theorem sent_transmitBytes {bytes : Bytes} {c : Command} (h : Command.parse bytes = .ok c) :
    (ch.transmitBytes now device bytes).2.2 = (ch.transmit now device c).2.2 := by
  unfold transmitBytes
  rw [h]

/-- What was addressed to the channel of a handle is sent on it as it stands. -/
theorem sent_of_addressed {c : Command} {wire : Bytes} (ready : ch.Ready now device)
    (plain : ch.session = none) (h : (ch.number.address c).encode = .ok wire) :
    (ch.transmitBytes now device wire).2.2.sent = device.sent ++ [wire] := by
  have hparse : Command.parse wire = .ok (ch.number.address c) := by
    rw [Command.parse_encode h]
    exact congrArg (fun d : Command => Except.ok { d with cla := ch.number.addressClass c.cla })
      c.normalized_normalized
  have hclass : ch.sentClass (ch.number.addressClass c.cla) :: wire.tail = wire := by
    obtain ⟨-, rfl⟩ := Command.encode_eq_ok_iff.mp h
    rw [ch.sentClass_addressClass]
    rfl
  rw [sent_transmitBytes hparse, sent_of_encode_ok ready plain h]
  exact congrArg (fun sent => device.sent ++ [sent]) hclass

/-- A reply is what came back, unless that is too short. -/
theorem reply_iff (answer : Bytes) :
    (∀ r, (Response.parse answer).mapError CardError.apdu = .ok r ↔ r.encode = answer) ∧
      ∀ e, (Response.parse answer).mapError CardError.apdu = .error e ↔
        answer.length < 2 ∧ e = .apdu (.responseLength answer.length) := by
  refine ⟨fun r => mapError_eq_ok_iff.trans Response.parse_eq_ok_iff, fun e => ?_⟩
  rw [mapError_eq_error_iff]
  constructor
  · rintro ⟨fault, h, rfl⟩
    obtain ⟨hshort, rfl⟩ := Response.parse_eq_error_iff.mp h
    exact ⟨hshort, rfl⟩
  · rintro ⟨hshort, rfl⟩
    exact ⟨_, Response.parse_eq_error_iff.mpr ⟨hshort, rfl⟩, rfl⟩

/-- **Transparency.** An open handle of a connected device, without a session, refuses exactly the
commands that have no wire form, for their fault. Of any other it sends the wire form, but for the
class; the response is what comes back, unless that has no room for a status word. The tool prints
the wire form of every command that it can read, but for the class too, and the handle sends what is
printed for its channel without any change. -/
theorem transparent_in_clear {σ : Type} [Transport σ] (ch : Channel) (now : UInt64)
    (device : Recorder σ) (ready : ch.Ready now device) (plain : ch.session = none) :
    (∀ c : Command,
      let out := ch.transmit now device c
      (∀ e, out.1 = .error e ∧ out.2.2.sent = device.sent ↔
        ∃ fault, c.encode = .error fault ∧ e = .apdu fault) ∧
      ∀ wire, c.encode = .ok wire → ∃ sent, out.2.2.sent = device.sent ++ [sent] ∧
        Reclassed (ch.sentClass c.cla) wire sent ∧
        ∀ answer, (Transport.transmit device sent).1 = .ok answer →
          (∀ r, out.1 = .ok r ↔ r.encode = answer) ∧
          ∀ e, out.1 = .error e ↔
            answer.length < 2 ∧ e = .apdu (.responseLength answer.length)) ∧
    ∀ text bytes c, Hex.read text = .ok bytes → Command.parse bytes = .ok c →
      ∃ canonical printed, c.encode = .ok canonical ∧
        Reclassed (ch.number.addressClass c.cla) canonical printed ∧
        Tool.answer ["channel", text, ch.number.display] = .ok (.ok [Hex.print printed]) ∧
        Hex.read (Hex.print printed) = .ok printed ∧
        (ch.transmitBytes now device printed).2.2.sent = device.sent ++ [printed] := by
  constructor
  · intro c out
    refine ⟨fun e => refused_iff ready plain, fun wire h => ?_⟩
    refine ⟨_, sent_of_encode_ok ready plain h, Command.reclassed_of_encode h _, ?_⟩
    intro answer answered
    rw [show out.1 = _ from transmit_of_answered ready plain h answered]
    exact reply_iff answer
  · intro text bytes c htext hparse
    obtain ⟨canonical, hcanonical, -⟩ := Command.exists_canonical hparse
    have hprinted := ch.number.encode_address c
    rw [hcanonical] at hprinted
    exact ⟨canonical, _, hcanonical, Command.reclassed_of_encode hcanonical _,
      Tool.answer_channel htext hparse ch.number hprinted, Hex.read_print _,
      sent_of_addressed ready plain hprinted⟩

/-- A text with a mark and separators, on a channel above 3. The handle passes on what it is given
in reply. -/
theorem transparent_in_clear_five :
    let ch : Channel := { number := ⟨5⟩, epoch := 0 }
    let device : Recorder ScriptedDevice := { device := { script := [⟨.ok [0x6A, 0x82], false⟩] } }
    let c : Command := { cla := 0x80, ins := 0xB0, p1 := 0x00, p2 := 0x00, le := some 256 }
    ch.Ready 0 device ∧ ch.session = none ∧ ch.sentClass 0x80 = 0xC1 ∧
      (∃ sent, (ch.transmit 0 device c).2.2.sent = [sent] ∧
        Reclassed 0xC1 [0x80, 0xB0, 0x00, 0x00, 0x00] sent) ∧
      (ch.transmit 0 device c).1 = .ok ⟨[], ⟨0x6A, 0x82⟩⟩ ∧
      ∃ printed, Tool.answer ["channel", "0x80:B0 00:00 00", "5"] = .ok (.ok [Hex.print printed]) ∧
        Reclassed 0xC1 [0x80, 0xB0, 0x00, 0x00, 0x00] printed ∧
        (ch.transmitBytes 0 device printed).2.2.sent = [printed] := by
  intro ch device c
  have ready : ch.Ready 0 device := ⟨rfl, rfl⟩
  have hsentClass : ch.sentClass c.cla = 0xC1 := by decide
  have haddressClass : ch.number.addressClass c.cla = 0xC1 := by decide
  have hdisplay : ch.number.display = "5" := by decide
  have hencode : c.encode = .ok [0x80, 0xB0, 0x00, 0x00, 0x00] := by decide
  have hread : Hex.read "0x80:B0 00:00 00" = .ok [0x80, 0xB0, 0x00, 0x00, 0x00] := by cbv
  have hparse : Command.parse [0x80, 0xB0, 0x00, 0x00, 0x00] = .ok c := by decide
  obtain ⟨hclear, htool⟩ := transparent_in_clear ch 0 device ready rfl
  obtain ⟨sent, hsent, hclass, hreply⟩ := (hclear c).2 _ hencode
  obtain ⟨canonical, printed, hcanonical, hprinted, hline, -, hagain⟩ := htool _ _ _ hread hparse
  rw [hencode] at hcanonical
  cases hcanonical
  rw [hsentClass] at hclass
  rw [haddressClass] at hprinted
  rw [hdisplay] at hline
  exact ⟨ready, rfl, hsentClass, ⟨sent, hsent, hclass⟩,
    ((hreply [0x6A, 0x82] rfl).1 ⟨[], ⟨0x6A, 0x82⟩⟩).mpr rfl, printed, hline, hprinted, hagain⟩

end Channel

end SmartCard
