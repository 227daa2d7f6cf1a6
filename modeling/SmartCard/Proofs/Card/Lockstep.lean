import SmartCard.Proofs.Card.Effect
import SmartCard.Proofs.Messaging.Counterpart

/-!
# Host and card stay in step

`Counterpart` is a device that plays the card's side of a session. What it answers is arbitrary, and
any answer may be replaced on the way. `lockstep`: its counter and the host's stay equal whatever
happens, it recovers every command, and every answer that is not replaced arrives.
-/

namespace SmartCard

namespace Command

/-- Some session protects the command. -/
def Accepted (c : Command) : Prop := ∃ (s : Session) (w : Command), (s.encrypt c).1 = .ok w

/-- The command as a card sees it: marked as protected, with empty data left out. -/
def seen (c : Command) : Command := { c.normalized with cla := c.cla ||| protectedClassBits }

end Command

/-- What a card answers, and what the host gets instead, if somebody interferes. -/
structure Turn where
  response : Response
  encrypts : Bool
  trailer : StatusWord
  replacement : Option Bytes
  fits : response.payload.length < 2 ^ 31

/-- A card in a session, whose behaviour may hang on all the commands so far. -/
structure Counterpart where
  keys : SessionKeys
  counter : Counter
  /-- The commands so far, none for one that was rejected. -/
  received : List (Option Command)
  behaviour : List (Option Command) → Turn

namespace Counterpart

/-- The answer to a command that is rejected: secure messaging objects incorrect. -/
def rejection : Bytes := [0x69, 0x88]

/-- The counter steps for the command and for the answer, also if the command is rejected. -/
def exchange (d : Counterpart) (wire : Bytes) : Bytes × Counterpart :=
  let recovered := d.keys.recover d.counter.next wire
  let received := d.received ++ [recovered]
  let turn := d.behaviour received
  let answer :=
    if recovered.isSome then
      d.keys.protectedAnswer d.counter.next.next turn.encrypts turn.response turn.trailer
    else rejection
  (turn.replacement.getD answer, { d with counter := d.counter.next.next, received })

instance : Transport Counterpart where
  isConnected _ := true
  transmit d wire := (.ok (d.exchange wire).1, (d.exchange wire).2)
  reset d := (.ok (), d)

/-- What has become of `d` once it has seen `commands`, but for the counter. -/
structure Follows (d : Counterpart) (commands : List Command) (d' : Counterpart) : Prop where
  keys : d'.keys = d.keys
  behaviour : d'.behaviour = d.behaviour
  received : d'.received = d.received ++ commands.map fun c => some c.seen

theorem Follows.refl (d : Counterpart) : d.Follows [] d :=
  ⟨rfl, rfl, (List.append_nil _).symm⟩

theorem Follows.trans {d d' d'' : Counterpart} {first second : List Command}
    (h : d.Follows first d') (h' : d'.Follows second d'') : d.Follows (first ++ second) d'' where
  keys := h'.keys.trans h.keys
  behaviour := h'.behaviour.trans h.behaviour
  received := by rw [h'.received, h.received, List.map_append, List.append_assoc]

end Counterpart

namespace Command

theorem accepted_iff {c : Command} : c.Accepted ↔ c.Protectable := by
  constructor
  · rintro ⟨s, w, hw⟩
    have hencrypt : s.encrypt c = (.ok w, (s.encrypt c).2) := Prod.ext hw rfl
    exact (Session.encrypt_eq_ok_iff.mp hencrypt).1
  · intro h
    let s : Session := .start ⟨Counter.block 0, Counter.block 0⟩
    have hencrypt : s.encrypt c = (.ok (s.keys.protectedForm s.step.counter c), s.step) :=
      Session.encrypt_eq_ok_iff.mpr ⟨h, rfl, rfl⟩
    exact ⟨s, _, congrArg Prod.fst hencrypt⟩

theorem Protectable.normalized {c : Command} (h : c.Protectable) : c.normalized.Protectable where
  unprotected := h.unprotected
  expected := h.expected
  fits := by
    rw [body_normalized]
    exact h.fits

end Command

namespace Card

/-- The basic channel is in a session, and the device at the other end of it. -/
structure InStep (card : Card Counterpart) : Prop extends BasicOpen card where
  session : card.basic.session = some ⟨card.device.keys, card.device.counter⟩

/-- A session starts in step with a card that starts one too. -/
theorem inStep_establish (keys : SessionKeys) (behaviour : List (Option Command) → Turn)
    (settings : CardSettings) :
    InStep ((fresh ⟨keys, .zero, [], behaviour⟩ settings).run [.establish keys]) :=
  ⟨⟨rfl, rfl⟩, rfl⟩

variable {card : Card Counterpart} {c : Command}

/-- One exchange, from both ends. -/
theorem InStep.step_transmit (h : card.InStep) (hc : c.Protectable) :
    card.step (.transmit 0 c) =
      let wire := (card.device.keys.protectedForm card.device.counter.next c.normalized).encodeFields
      let answer := (card.device.exchange wire).1
      let counter := card.device.counter.next.next
      (((card.device.keys.unprotect counter answer).mapError .messaging).map .response,
        { card with
          basic := { card.basic with session := some ⟨card.device.keys, counter⟩ }
          device := (card.device.exchange wire).2 }) := by
  have hchannel : card.channel 0 = .ok card.basic := rfl
  have ready : card.basic.Ready card.epoch card.device := ⟨h.isClosed card.epoch, rfl⟩
  have haddress : card.basic.address c = c.normalized := by
    unfold Channel.address
    rw [h.number]
    rfl
  simp only [step, Card.transmit, onChannel_of_ok hchannel,
    Channel.transmit_of_secured ready h.session, haddress,
    Exchange.secured_of_protectable hc.normalized]
  rfl

theorem exchange_protectedForm (d : Counterpart) (hc : c.Protectable) :
    let wire := (d.keys.protectedForm d.counter.next c.normalized).encodeFields
    let received := d.received ++ [some c.seen]
    let turn := d.behaviour received
    d.exchange wire =
      (turn.replacement.getD
        (d.keys.protectedAnswer d.counter.next.next turn.encrypts turn.response turn.trailer),
        { d with counter := d.counter.next.next, received }) := by
  intro wire received turn
  have hrecover : d.keys.recover d.counter.next wire = some c.seen := by
    rw [SessionKeys.recover_protectedForm hc.normalized, Command.normalized_normalized]
    rfl
  unfold Counterpart.exchange
  simp only [hrecover]
  rfl

/-- What an exchange in step comes to: the card sees the command, both counters move on together,
and an answer that is not replaced arrives. -/
theorem InStep.exchange (h : card.InStep) (hc : c.Protectable) :
    (card.step (.transmit 0 c)).2.InStep ∧
      card.device.Follows [c] (card.step (.transmit 0 c)).2.device ∧
      ((card.device.behaviour (card.device.received ++ [some c.seen])).replacement = none →
        (card.step (.transmit 0 c)).1 = .ok (.response
          (card.device.behaviour (card.device.received ++ [some c.seen])).response)) := by
  have hdevice := exchange_protectedForm card.device hc
  have hstep := h.step_transmit hc
  simp only [hdevice] at hstep
  rw [hstep]
  refine ⟨⟨⟨h.number, h.closed⟩, rfl⟩, ⟨rfl, rfl, rfl⟩, ?_⟩
  intro hgenuine
  rw [hgenuine, Option.getD_none, SessionKeys.unprotect_protectedAnswer (Turn.fits _)]
  rfl

/-- A whole run in step: the card has seen all the commands, in order. -/
theorem InStep.run (h : card.InStep) (commands : List Command)
    (hall : ∀ c ∈ commands, c.Protectable) :
    (card.run (commands.map (.transmit 0))).InStep ∧
      card.device.Follows commands (card.run (commands.map (.transmit 0))).device := by
  induction commands generalizing card with
  | nil => exact ⟨h, .refl card.device⟩
  | cons c rest ih =>
    obtain ⟨hstep, hsees, -⟩ := h.exchange (hall c List.mem_cons_self)
    obtain ⟨hrun, hfollows⟩ := ih hstep fun c' hc' => hall c' (List.mem_cons_of_mem c hc')
    exact ⟨hrun, hsees.trans hfollows⟩

/-- **In step.** A host that starts in step with a card stays so through every run of accepted
commands, however the card answers and whichever answers are replaced. After every call `c` both
hold the same keys and the same counter, the card has recovered all commands so far, and the host
has the card's response, if it was not replaced. -/
theorem lockstep (h : card.InStep) (commands : List Command) (c : Command)
    (haccepted : ∀ c' ∈ commands ++ [c], c'.Accepted) :
    let after := (card.run (commands.map (.transmit 0))).step (.transmit 0 c)
    after.2.basic.session = some ⟨card.device.keys, after.2.device.counter⟩ ∧
      after.2.device.keys = card.device.keys ∧
      after.2.device.received =
        card.device.received ++ (commands ++ [c]).map (fun c' => some c'.seen) ∧
      ((card.device.behaviour after.2.device.received).replacement = none →
        after.1 = .ok (.response (card.device.behaviour after.2.device.received).response)) := by
  intro after
  have hall : ∀ c' ∈ commands ++ [c], c'.Protectable :=
    fun c' hc' => Command.accepted_iff.mp (haccepted c' hc')
  obtain ⟨hrun, hbefore⟩ := h.run commands fun c' hc' => hall c' (List.mem_append_left _ hc')
  obtain ⟨hstep, hlast, hanswer⟩ :=
    hrun.exchange (hall c (List.mem_append_right _ List.mem_cons_self))
  have hfollows := hbefore.trans hlast
  refine ⟨?_, hfollows.keys, hfollows.received, ?_⟩
  · rw [← hfollows.keys]
    exact hstep.session
  · rw [← hbefore.behaviour, hlast.received]
    exact hanswer

/-- Two commands to a card that answers with the number of commands so far, the first answer being
replaced. -/
theorem lockstep_replaced :
    let behaviour := fun received : List (Option Command) =>
      Turn.mk ⟨[UInt8.ofNat received.length], .success⟩ true .success
        (if received.length = 1 then some [0x90, 0x00] else none) (by decide : 1 < 2 ^ 31)
    let keys : SessionKeys := ⟨Counter.block 0, Counter.block 1⟩
    let first : Command := ⟨0x00, 0xB0, 0x00, 0x00, none, some 4⟩
    let second : Command := ⟨0x00, 0xD6, 0x00, 0x00, some [0x01], none⟩
    let card := (fresh (Counterpart.mk keys .zero [] behaviour) {}).run [.establish keys]
    let after := (card.run [.transmit 0 first]).step (.transmit 0 second)
    after.2.basic.session = some ⟨keys, after.2.device.counter⟩ ∧
      after.1 = .ok (.response ⟨[2], .success⟩) := by
  intro behaviour keys first second card after
  have haccepted : ∀ c' ∈ [first] ++ [second], c'.Accepted := by
    intro c' hc'
    apply Command.accepted_iff.mpr
    revert c'
    decide
  obtain ⟨hsession, -, hreceived, hanswer⟩ :=
    lockstep (inStep_establish keys behaviour {}) [first] second haccepted
  refine ⟨hsession, ?_⟩
  rw [hreceived] at hanswer
  exact hanswer rfl

end Card

end SmartCard
