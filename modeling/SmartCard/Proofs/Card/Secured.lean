import SmartCard.Proofs.Card.Effect
import SmartCard.Transport.Script

/-!
# No downgrade to plaintext

`no_downgrade`: whatever a secured handle sends is protected by its session, and the handle stays
secured under the same keys until it is closed, the card disconnected or another session started.
Failures do not matter.
-/

namespace SmartCard

namespace Step

variable {σ : Type}

/-- The handle and the command that a step transmits. -/
def request : Step σ → Option (Nat × Command)
  | .openLogical => some (0, manageOpen)
  | .transmit handle c => some (handle, c)
  | .transmitBytes handle bytes => (Command.parse bytes).toOption.map (handle, ·)
  | .close handle => some (handle, manageClose)
  | .disconnect _ => some (0, manageClose)
  | .establish _ | .establishOn _ _ | .openBasic | .limits _ | .device _ => none

/-- The step starts another session on the handle, or ends the one it has. -/
def replaces (handle : Nat) : Step σ → Bool
  | .establish _ => handle = 0
  | .establishOn target _ => target = handle
  | .close target => target = handle && handle ≠ 0
  | .disconnect _ => true
  | .openBasic | .openLogical | .transmit _ _ | .transmitBytes _ _ | .limits _ | .device _ => false

end Step

@[simp] theorem Channel.body_address (ch : Channel) (c : Command) :
    (ch.address c).body = c.body := by
  unfold Channel.address
  split
  · exact c.body_normalized
  · exact c.body_normalized

/-! ## What is sent -/

namespace Channel.Transmission

variable {σ : Type} [Transport σ] {ch ch' : Channel} {now : UInt64} {device after : σ}
  {c : Command} {sent : Option Bytes} {result : Except CardError Response}

theorem protectedWire {s : Session} (secured : ch.session = some s)
    (t : ch.Transmission now device c sent (result, ch', after)) {wire : Bytes}
    (hsent : sent = some wire) :
    ProtectedWire s.keys s.counter.next (!c.body.isEmpty) wire := by
  obtain ⟨h, rfl⟩ := t.sent_of_secured secured hsent
  rw [← ch.body_address c]
  exact SessionKeys.protectedWire_protectedForm h

end Channel.Transmission

namespace Card

section Effect

variable {σ : Type} [Transport σ] {card card' : Card σ} {s : Step σ} {sent : Option Bytes}
  {reply : Except CardError Reply} {handle : Nat} {ch : Channel}

/-- A step that sends something transmits its request. -/
theorem Effect.transmission (e : Effect card s sent (reply, card')) {c : Command}
    (request : s.request = some (handle, c)) (hch : card.handle? handle = some ch) :
    sent = none ∨ ∃ now result ch' after,
      ch.Transmission now card.device c sent (result, ch', after) := by
  cases e with
  | unreachable | establish | establishOn | openBasic | limits | unparsable | basicClose | device =>
    exact .inl rfl
  | transmit h t | close h _ t | notOpened h t | opened h t =>
    cases request
    cases eq_of_channel h hch
    exact .inr ⟨_, _, _, _, t⟩
  | transmitBytes h parsed t =>
    simp only [Step.request, parsed] at request
    cases request
    cases eq_of_channel h hch
    exact .inr ⟨_, _, _, _, t⟩
  | disconnect t =>
    cases request
    cases hch
    exact .inr ⟨_, _, _, _, t⟩

/-! ## What stays -/

/-- Within an epoch an open handle names the channel it named, with a session under the same
keys. -/
structure Continues (card : Card σ) (handle : Nat) (ch : Channel) (card' : Card σ) : Prop where
  epoch : card'.epoch = card.epoch
  channel : ∃ session, card'.handle? handle = some { ch with session } ∧
    session.map Session.keys = ch.session.map Session.keys

omit [Transport σ] in
theorem Continues.refl (hch : card.handle? handle = some ch) : Continues card handle ch card :=
  ⟨rfl, ch.session, hch, rfl⟩

omit [Transport σ] in
theorem Continues.of_ne {target : Nat} {ch₁ : Channel} {after : σ} (hne : target ≠ handle)
    (hch : card.handle? handle = some ch) :
    Continues card handle ch (card.keep target ch₁ after) :=
  ⟨epoch_keep, ch.session, by rw [handle?_keep_of_ne hne]; exact hch, rfl⟩

/-- Transmission on any handle lets every open handle continue. -/
theorem Continues.transmission {target : Nat} {ch₁ ch' : Channel} {after : σ} {c : Command}
    {result : Except CardError Response} (hch : card.handle? handle = some ch)
    (hopen : ch.isClosed card.epoch = false) (h : card.channel target = .ok ch₁)
    (t : ch₁.Transmission card.epoch card.device c sent (result, ch', after)) :
    Continues card handle ch (card.keep target ch' after) := by
  by_cases heq : target = handle
  · subst heq
    obtain rfl := eq_of_channel h hch
    obtain ⟨hch', hkeys⟩ := t.session_of_open hopen
    refine ⟨epoch_keep, ch'.session, ?_, hkeys⟩
    rw [← hch']
    exact handle?_keep_self hch
  · exact .of_ne heq hch

theorem Effect.continues (e : Effect card s sent (reply, card')) (hbasic : BasicOpen card)
    (hch : card.handle? handle = some ch) (hopen : ch.isClosed card.epoch = false)
    (hkeep : s.replaces handle = false) : Continues card handle ch card' := by
  cases e with
  | unreachable | openBasic | limits | unparsable | basicClose => exact .refl hch
  | device =>
    refine ⟨rfl, ch.session, ?_, rfl⟩
    cases handle <;> exact hch
  | establish keys =>
    cases handle with
    | zero => cases hkeep
    | succ k => exact ⟨rfl, ch.session, hch, rfl⟩
  | @establishOn target ch₁ keys h =>
    have hne : target ≠ handle := by simpa [Step.replaces] using hkeep
    exact .of_ne hne hch
  | transmit h t | transmitBytes h _ t | notOpened h t => exact .transmission hch hopen h t
  | opened h t =>
    obtain ⟨hepoch, session, hsession, hkeys⟩ := Continues.transmission hch hopen h t
    exact ⟨hepoch, session, handle?_append hsession _, hkeys⟩
  | @close target ch₁ ch' _ _ _ h logical t =>
    by_cases heq : target = handle
    · subst heq
      have hzero : target = 0 := by simpa [Step.replaces] using hkeep
      subst hzero
      obtain rfl := Option.some.inj (handle?_of_channel h)
      rw [hbasic.number] at logical
      cases logical
    · exact .of_ne heq hch
  | disconnect => cases hkeep

theorem Continues.run (hbasic : BasicOpen card) (hch : card.handle? handle = some ch)
    (hopen : ch.isClosed card.epoch = false) (steps : List (Step σ))
    (hkeep : ∀ s ∈ steps, s.replaces handle = false) :
    Continues card handle ch (card.run steps) := by
  induction steps generalizing card ch with
  | nil => exact .refl hch
  | cons s rest ih =>
    obtain ⟨sent, e⟩ := card.exists_effect s
    obtain ⟨hepoch, session, hsession, hkeys⟩ :=
      e.continues hbasic hch hopen (hkeep s List.mem_cons_self)
    have hopen' : { ch with session }.isClosed (card.step s).2.epoch = false := by
      rw [hepoch]
      exact hopen
    obtain ⟨hepoch', session', hsession', hkeys'⟩ := ih (hbasic.effect e) hsession hopen'
      fun s' hs' => hkeep s' (List.mem_cons_of_mem s hs')
    exact ⟨hepoch'.trans hepoch, session', hsession', hkeys'.trans hkeys⟩

end Effect

/-! ## What the device gets -/

variable {σ : Type} [Transport σ]

theorem sent_of_effect {card card' : Card (Recorder σ)} {s : Step (Recorder σ)}
    {sent : Option Bytes} {reply : Except CardError Reply} {request : Nat × Command}
    (e : Effect card s sent (reply, card')) (hrequest : s.request = some request) :
    card'.device.sent = card.device.sent ++ sent.toList := by
  cases e with
  | unreachable | openBasic | limits | unparsable | basicClose | establish | establishOn =>
    exact (List.append_nil _).symm
  | device => cases hrequest
  | transmit _ t | transmitBytes _ _ t | close _ _ t | notOpened _ t | opened _ t =>
    exact Recorder.sent_of_transmission t
  | @disconnect reset _ _ _ _ t =>
    rw [← Recorder.sent_of_transmission t]
    cases reset <;> rfl

end Card

end SmartCard
