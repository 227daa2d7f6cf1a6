import SmartCard.Proofs.Card.Transmission
import SmartCard.Transport.Script

/-!
# Which channel a command reaches

The class byte carries both the channel and the marks of secure messaging. Up to channel 3 they have
bits of their own, above it they share the low four bits. `LogicalChannel.FreeIn`: a class byte has
room for a channel; then the channel can be read back (`ofClass_addressClass_of_freeIn`).

`reaches_iff`: a command of a logical channel reaches this channel exactly if it is sent in the
clear or the channel is one of 1 to 3. Protected commands of channels 4 to 15 go to a channel from
16 on (`LogicalChannel.whenProtected`), and those of the channels from 16 on are not sent.
-/

namespace SmartCard

namespace LogicalChannel

/-- The channel that the protected commands of a channel address, if they can be sent. -/
def whenProtected (n : LogicalChannel) : Option LogicalChannel :=
  if n.number.val < 4 then some n
  else if n.number.val < 16 then some ⟨⟨16 + n.number % 4, by omega⟩⟩
  else none

theorem whenProtected_eq_self_iff {n : LogicalChannel} :
    n.whenProtected = some n ↔ n.number.val < 4 := by
  have hall : ∀ i : Fin 20, whenProtected ⟨i⟩ = some ⟨i⟩ ↔ i.val < 4 := by decide
  exact hall n.number

/-! ## Class bytes -/

/-- The classes that carry neither a channel nor the marks of secure messaging. -/
def freeClasses : List UInt8 := [0x00, 0x10, 0x20, 0x30, 0x80, 0x90, 0xA0, 0xB0]

theorem mem_freeClasses {cla : UInt8} (h : cla &&& 0x4F = 0) : cla ∈ freeClasses := by
  have hall : ∀ b : UInt8, b &&& 0x4F = 0 → b ∈ freeClasses := by
    refine Cipher.forall_byte ?_
    decide +kernel
  exact hall cla h

/-- The class leaves the place of the channel number free: the two low bits are overwritten, the low
four are not. -/
def FreeIn (n : LogicalChannel) (cla : UInt8) : Prop :=
  if n.number.val < 4 then cla &&& 0x40 = 0 else cla &&& 0x0F = 0

instance (n : LogicalChannel) (cla : UInt8) : Decidable (n.FreeIn cla) :=
  inferInstanceAs (Decidable (if n.number.val < 4 then cla &&& 0x40 = 0 else cla &&& 0x0F = 0))

theorem freeIn_of_and_eq_zero {cla : UInt8} (h : cla &&& 0x4F = 0) (n : LogicalChannel) :
    n.FreeIn cla := by
  have hpart {mask : UInt8} (hmask : 0x4F &&& mask = mask) : cla &&& mask = 0 := by
    rw [← hmask, ← UInt8.and_assoc, h, UInt8.zero_and]
  unfold FreeIn
  split
  · exact hpart rfl
  · exact hpart rfl

theorem ofClass_addressClass_of_freeIn {n : LogicalChannel} {cla : UInt8} (h : n.FreeIn cla) :
    ofClass (n.addressClass cla) = n := by
  have hall : ∀ cla : UInt8, ∀ i : Fin 20, FreeIn ⟨i⟩ cla →
      ofClass (addressClass ⟨i⟩ cla) = ⟨i⟩ := by
    refine Cipher.forall_byte ?_
    decide +kernel
  exact hall cla n.number h

theorem ofClass_addressClass {cla : UInt8} (h : cla &&& 0x4F = 0) (n : LogicalChannel) :
    ofClass (n.addressClass cla) = n :=
  ofClass_addressClass_of_freeIn (n.freeIn_of_and_eq_zero h)

/-- Up to channel 3 the marks of secure messaging leave the number alone. -/
theorem ofClass_marked {n : LogicalChannel} {cla : UInt8} (hn : n.number.val < 4)
    (h : n.FreeIn cla) : ofClass (n.addressClass cla ||| protectedClassBits) = n := by
  have hall : ∀ cla : UInt8, ∀ i : Fin 20, i.val < 4 → FreeIn ⟨i⟩ cla →
      ofClass (addressClass ⟨i⟩ cla ||| protectedClassBits) = ⟨i⟩ := by
    refine Cipher.forall_byte ?_
    decide +kernel
  exact hall cla n.number hn h

/-- What marking a class as protected makes of the channel in it. -/
theorem whenProtected_eq {cla : UInt8} (h : cla &&& 0x4F = 0) (n : LogicalChannel) :
    n.whenProtected =
      if n.addressClass cla &&& protectedClassBits = protectedClassBits then none
      else some (ofClass (n.addressClass cla ||| protectedClassBits)) := by
  have hall : ∀ i : Fin 20, ∀ cla ∈ freeClasses,
      whenProtected ⟨i⟩ =
        if addressClass ⟨i⟩ cla &&& protectedClassBits = protectedClassBits then none
        else some (ofClass (addressClass ⟨i⟩ cla ||| protectedClassBits)) := by decide +kernel
  exact hall n.number cla (mem_freeClasses h)

end LogicalChannel

/-- A class without channel and without marks, an expected length in range, and no more data than
leaves room for all the objects of secure messaging. -/
structure Command.Addressable (c : Command) : Prop where
  cla : c.cla &&& 0x4F = 0
  expected : ∀ le ∈ c.le, 1 ≤ le ∧ le ≤ Command.maxExtendedExpected
  data : c.body.length ≤ 65503

theorem manageClose_addressable : manageClose.Addressable := ⟨by decide, by decide, by decide⟩

namespace Channel

variable {ch : Channel} {now : UInt64} {c : Command}

/-- The channel that the commands of a handle address, if they can be sent. -/
def addressed (ch : Channel) : Option LogicalChannel :=
  if ch.session.isNone then some ch.number else ch.number.whenProtected

theorem addressed_eq_self_iff :
    ch.addressed = some ch.number ↔ ch.session = none ∨ ch.number.number.val < 4 := by
  unfold addressed
  cases ch.session with
  | none => simp
  | some s => simp [LogicalChannel.whenProtected_eq_self_iff]

/-- Exactly one command is sent, and it addresses the channel of the handle. -/
def Reaches {σ : Type} (ch : Channel) (device after : Recorder σ) : Prop :=
  ∃ wire, after.sent = device.sent ++ [wire] ∧
    wire.head?.map LogicalChannel.ofClass = some ch.number

theorem address_of_logical (logical : ch.number.isBasic = false) :
    ch.address c = ch.number.address c := by
  unfold address
  rw [if_neg (by simp [logical])]

variable {σ : Type} [Transport σ]

/-! ## What is sent -/

theorem encodable_address (logical : ch.number.isBasic = false) (hc : c.Addressable) :
    (ch.address c).Encodable := by
  rw [address_of_logical logical]
  refine ⟨?_, hc.expected⟩
  show c.normalized.body.length ≤ 65535
  rw [Command.body_normalized]
  exact Nat.le_trans hc.data (by decide)

theorem protectable_address_iff (logical : ch.number.isBasic = false) (hc : c.Addressable) :
    (ch.address c).Protectable ↔
      ch.number.addressClass c.cla &&& protectedClassBits ≠ protectedClassBits := by
  rw [address_of_logical logical]
  constructor
  · intro h
    exact of_decide_eq_false h.unprotected
  · intro h
    refine ⟨decide_eq_false h, hc.expected, ?_⟩
    show c.normalized.body.length ≤ _
    rw [Command.body_normalized]
    refine Nat.le_trans hc.data ?_
    unfold Command.maxProtectable
    split <;> decide

/-- The first byte of what is sent names the addressed channel, and nothing is sent if there is no
such channel. -/
theorem Transmission.addressed {device after : σ} {sent : Option Bytes}
    {result : Except CardError Response} {ch' : Channel} (ready : ch.Ready now device)
    (logical : ch.number.isBasic = false) (hc : c.Addressable)
    (t : ch.Transmission now device c sent (result, ch', after)) :
    sent.map (fun wire => wire.head?.map LogicalChannel.ofClass) = ch.addressed.map some := by
  have haddress := @address_of_logical ch c logical
  have hclass := LogicalChannel.whenProtected_eq hc.cla ch.number
  have hprotectable := protectable_address_iff logical hc
  unfold Channel.addressed
  cases t with
  | closed h =>
    rw [ready.isOpen] at h
    cases h
  | absent _ h =>
    rw [ready.connected] at h
    cases h
  | unencodable _ _ refused =>
    rw [(encodable_address logical hc).encode] at refused
    cases refused
  | failed _ plain encoded | answered _ plain encoded =>
    obtain ⟨-, rfl⟩ := Command.encode_eq_ok_iff.mp encoded
    rw [plain, haddress]
    exact congrArg (some ∘ some) (LogicalChannel.ofClass_addressClass hc.cla ch.number)
  | refused _ secured h =>
    rw [if_pos (not_not.mp (hprotectable.not.mp h))] at hclass
    rw [secured, hclass]
    rfl
  | securedFailed _ secured h | securedAnswered _ secured h =>
    rw [if_neg (hprotectable.mp h)] at hclass
    rw [secured, hclass, haddress]
    rfl

/-! ## Reaching the channel -/

theorem reaches_transmit_iff {device : Recorder σ} (ready : ch.Ready now device)
    (logical : ch.number.isBasic = false) (hc : c.Addressable) :
    ch.Reaches device (ch.transmit now device c).2.2 ↔
      ch.session = none ∨ ch.number.number.val < 4 := by
  obtain ⟨sent, t⟩ := ch.exists_transmission now device c
  have haddressed := t.addressed ready logical hc
  have hsent := Recorder.sent_of_transmission t
  rw [← addressed_eq_self_iff]
  unfold Reaches
  rw [hsent]
  constructor
  · rintro ⟨wire, hwire, hhead⟩
    obtain rfl : sent = some wire := by
      have hone : sent.toList = [wire] := List.append_cancel_left hwire
      exact Option.mem_toList.mp (hone ▸ List.mem_cons_self)
    rw [Option.map_some, hhead] at haddressed
    obtain ⟨n, hn, hnumber⟩ := Option.map_eq_some_iff.mp haddressed.symm
    exact hn.trans hnumber
  · intro h
    rw [h] at haddressed
    obtain ⟨wire, rfl, hhead⟩ := Option.map_eq_some_iff.mp haddressed
    exact ⟨wire, rfl, hhead⟩

theorem reaches_close_iff {device : Recorder σ} (ready : ch.Ready now device)
    (logical : ch.number.isBasic = false) :
    ch.Reaches device (ch.close now device).2.2 ↔
      ch.session = none ∨ ch.number.number.val < 4 := by
  rw [← reaches_transmit_iff ready logical manageClose_addressable]
  unfold close
  rw [if_neg (by simp [logical])]

/-- **Reach.** An open handle on a logical channel of a connected device sends every addressable
command, and the request to close, as exactly one command to its own channel if and only if it is
not in a session or the channel is one of 1 to 3. -/
theorem reaches_iff (device : Recorder σ) (ch : Channel) (now : UInt64) (c : Command)
    (ready : ch.Ready now device) (logical : ch.number.isBasic = false) (hc : c.Addressable) :
    (ch.Reaches device (ch.transmit now device c).2.2 ↔
      ch.session = none ∨ ch.number.number.val < 4) ∧
    (ch.Reaches device (ch.close now device).2.2 ↔
      ch.session = none ∨ ch.number.number.val < 4) :=
  ⟨reaches_transmit_iff ready logical hc, reaches_close_iff ready logical⟩

/-- Channel 3 still has its commands reach it in a session. -/
theorem reaches_iff_three :
    let ch : Channel := ⟨⟨3⟩, 0, some (.start ⟨Counter.block 0, Counter.block 1⟩), false⟩
    let device : Recorder ScriptedDevice := ⟨⟨[], true, none⟩, [], 0⟩
    let c : Command := ⟨0x00, 0xB0, 0x00, 0x00, none, none⟩
    ch.Ready 0 device ∧ ch.number.isBasic = false ∧ c.Addressable ∧
      ch.Reaches device (ch.transmit 0 device c).2.2 ∧ ch.Reaches device (ch.close 0 device).2.2 := by
  intro ch device c
  have ready : ch.Ready 0 device := ⟨rfl, rfl⟩
  have hc : c.Addressable := ⟨by decide, by decide, by decide⟩
  obtain ⟨htransmit, hclose⟩ := reaches_iff device ch 0 c ready rfl hc
  exact ⟨ready, rfl, hc, htransmit.mpr (.inr (by decide)), hclose.mpr (.inr (by decide))⟩

/-- In a session channel 5 loses its commands: the marks of secure messaging turn its class into
that of channel 17. -/
theorem not_reaches_five :
    let ch : Channel := ⟨⟨5⟩, 0, some (.start ⟨Counter.block 0, Counter.block 1⟩), false⟩
    let device : Recorder ScriptedDevice := ⟨⟨[⟨.error .transmission, false⟩], true, none⟩, [], 0⟩
    let c : Command := ⟨0x00, 0xB0, 0x00, 0x00, none, none⟩
    ch.Ready 0 device ∧ ch.number.isBasic = false ∧ c.Addressable ∧
      ch.addressed = some ⟨17⟩ ∧
      ¬ ch.Reaches device (ch.transmit 0 device c).2.2 ∧
      ¬ ch.Reaches device (ch.close 0 device).2.2 := by
  intro ch device c
  have ready : ch.Ready 0 device := ⟨rfl, rfl⟩
  have hc : c.Addressable := ⟨by decide, by decide, by decide⟩
  have hnot : ¬ (ch.session = none ∨ ch.number.number.val < 4) := by decide
  refine ⟨ready, rfl, hc, by decide, ?_, ?_⟩
  · exact (reaches_transmit_iff ready rfl hc).not.mpr hnot
  · exact (reaches_close_iff ready rfl).not.mpr hnot

end Channel

end SmartCard
