import SmartCard.Proofs.Apdu.Response
import SmartCard.Proofs.Card.Transmission

/-!
# Addressing changes the class byte only

A channel sends a command with another class at most (`Channel.encode_address`): the lengths, their
form and the faults stay as they are. To address a command once more changes nothing
(`LogicalChannel.addressClass_addressClass`).

On a handle without a session this is all: `Channel.refused_iff`, `Channel.sent_of_encode_ok` and
`Channel.transmit_of_answered` say when nothing is sent, what is sent and what comes back.
-/

namespace SmartCard

/-- The byte strings differ in the first byte at most, which is `cla` in the second. -/
structure Reclassed (cla : UInt8) (wire sent : Bytes) : Prop where
  length : sent.length = wire.length
  tail : sent.tail = wire.tail
  head : sent.head? = some cla

/-! ## The class of a command -/

namespace Command

/-- The class is the first byte on the wire, and nothing else there hangs on it. -/
theorem encode_withClass (c : Command) (cla : UInt8) :
    { c with cla }.encode = c.encode.map (cla :: ·.tail) := by
  cases h : c.encode with
  | ok wire =>
    obtain ⟨hc, rfl⟩ := encode_eq_ok_iff.mp h
    have hclass : Encodable { c with cla } := ⟨hc.data, hc.expected⟩
    rw [hclass.encode]
    rfl
  | error e =>
    apply encode_eq_error_iff.mpr
    cases encode_eq_error_iff.mp h with
    | data hlong => exact .data hlong
    | expected hshort hle hrange => exact .expected hshort hle hrange

theorem reclassed_of_encode {c : Command} {wire : Bytes} (h : c.encode = .ok wire) (cla : UInt8) :
    Reclassed cla wire (cla :: wire.tail) := by
  obtain ⟨-, rfl⟩ := encode_eq_ok_iff.mp h
  exact ⟨rfl, rfl, rfl⟩

end Command

namespace LogicalChannel

/-- Up to channel 3 the number is overwritten by itself, above it the same bits are set again. -/
theorem addressClass_addressClass (n : LogicalChannel) (cla : UInt8) :
    n.addressClass (n.addressClass cla) = n.addressClass cla := by
  unfold addressClass
  by_cases h : n.number < 4
  · have hall : ∀ i : Fin 20, i < 4 → UInt8.ofNat i &&& 0xFC = 0 := by decide
    have hmask := hall n.number h
    have hdistrib (a b m : UInt8) : (a ||| b) &&& m = a &&& m ||| b &&& m :=
      UInt8.toBitVec_inj.mp BitVec.and_or_distrib_right
    rw [if_pos h, if_pos h, hdistrib, hmask, UInt8.and_assoc, UInt8.and_self, UInt8.or_zero]
  · rw [if_neg h, if_neg h]
    generalize UInt8.ofNat _ = k
    calc cla ||| 0x40 ||| k ||| 0x40 ||| k = cla ||| ((0x40 ||| k) ||| (0x40 ||| k)) := by
          simp only [UInt8.or_assoc]
      _ = cla ||| 0x40 ||| k := by rw [UInt8.or_self, UInt8.or_assoc]

theorem encode_address (n : LogicalChannel) (c : Command) :
    (n.address c).encode = c.encode.map (n.addressClass c.cla :: ·.tail) := by
  show { c.normalized with cla := n.addressClass c.cla }.encode = _
  rw [Command.encode_withClass, Command.encode_normalized]

end LogicalChannel

namespace Channel

/-- The class that a command gets on its way to the card. -/
def sentClass (ch : Channel) (cla : UInt8) : UInt8 :=
  if ch.number.isBasic then cla else ch.number.addressClass cla

variable {ch : Channel} {c : Command} {now : UInt64}

theorem encode_address (ch : Channel) (c : Command) :
    (ch.address c).encode = c.encode.map (ch.sentClass c.cla :: ·.tail) := by
  unfold address sentClass
  split
  · have hsame : c.normalized.encode = c.normalized.encode.map (c.cla :: ·.tail) :=
      c.normalized.encode_withClass c.cla
    rwa [c.encode_normalized] at hsame ⊢
  · exact ch.number.encode_address c

theorem sentClass_addressClass (ch : Channel) (cla : UInt8) :
    ch.sentClass (ch.number.addressClass cla) = ch.number.addressClass cla := by
  unfold sentClass
  split
  · rfl
  · exact ch.number.addressClass_addressClass cla

/-! ## Commands in the clear -/

section

variable {σ : Type} [Transport σ] {device : σ}

theorem transmit_of_encode_error {fault : ApduError} (ready : ch.Ready now device)
    (plain : ch.session = none) (h : c.encode = .error fault) :
    ch.transmit now device c = (.error (.apdu fault), ch, device) := by
  have hencode : (ch.address c).encode = .error fault := by
    rw [encode_address, h]
    rfl
  rw [transmit_of_plain ready plain]
  unfold Exchange.plain
  rw [hencode]

theorem transmit_of_encode_ok {wire : Bytes} (ready : ch.Ready now device)
    (plain : ch.session = none) (h : c.encode = .ok wire) :
    let sent := ch.sentClass c.cla :: wire.tail
    ch.transmit now device c =
      (match (Transport.transmit device sent).1 with
        | .error e => .error (.transport e)
        | .ok answer => (Response.parse answer).mapError .apdu,
      ch, (Transport.transmit device sent).2) := by
  intro sent
  have hencode : (ch.address c).encode = .ok sent := by
    rw [encode_address, h]
    rfl
  rw [transmit_of_plain ready plain]
  unfold Exchange.plain
  rcases hsent : Transport.transmit device sent with ⟨e | answer, after⟩
  · simp only [hencode, hsent]
  · simp only [hencode, hsent]

end

variable {σ : Type} [Transport σ] {device : Recorder σ}

theorem sent_of_encode_ok {wire : Bytes} (ready : ch.Ready now device) (plain : ch.session = none)
    (h : c.encode = .ok wire) :
    (ch.transmit now device c).2.2.sent = device.sent ++ [ch.sentClass c.cla :: wire.tail] := by
  rw [transmit_of_encode_ok ready plain h]
  exact Recorder.sent_transmit device _

/-- Nothing is sent, and a fault reported, exactly if the command has that fault. -/
theorem refused_iff {e : CardError} (ready : ch.Ready now device) (plain : ch.session = none) :
    (ch.transmit now device c).1 = .error e ∧
        (ch.transmit now device c).2.2.sent = device.sent ↔
      ∃ fault, c.encode = .error fault ∧ e = .apdu fault := by
  constructor
  · rintro ⟨hfailed, hsent⟩
    cases h : c.encode with
    | error fault =>
      rw [transmit_of_encode_error ready plain h] at hfailed
      exact ⟨fault, rfl, (Except.error.inj hfailed).symm⟩
    | ok wire =>
      rw [sent_of_encode_ok ready plain h] at hsent
      simp at hsent
  · rintro ⟨fault, h, rfl⟩
    rw [transmit_of_encode_error ready plain h]
    exact ⟨rfl, rfl⟩

/-- The response is what the device answered, taken apart. -/
theorem transmit_of_answered {wire answer : Bytes} (ready : ch.Ready now device)
    (plain : ch.session = none) (h : c.encode = .ok wire)
    (answered : (Transport.transmit device (ch.sentClass c.cla :: wire.tail)).1 = .ok answer) :
    (ch.transmit now device c).1 = (Response.parse answer).mapError .apdu := by
  rw [transmit_of_encode_ok ready plain h]
  simp only [answered]

end Channel

end SmartCard
