import SmartCard.Proofs.Card.Closing
import SmartCard.Proofs.Card.Requests

/-!
# Disconnects

A disconnect does three things that can fail, and the later ones do not wait for the earlier:
`Card.Disconnected` is what is left of a card, whatever fails and whatever is answered, and
`Card.disconnectReply` which failure is reported.

`disconnect_takes_effect`: every disconnect has this outcome. What the card opens afterwards is
plain until it gets keys again, and open until it is closed itself or the card disconnected once
more.
-/

namespace SmartCard

/-- The step brings keys for the handle, or for the whole card. -/
def Step.bringsKeys {σ : Type} (handle : Nat) : Step σ → Bool
  | .establish _ => true
  | .establishOn target _ => target = handle
  | .openBasic | .openLogical | .transmit _ _ | .transmitBytes _ _ | .close _ => false
  | .limits _ | .disconnect _ | .device _ => false

namespace Card

/-! ## The outcome -/

/-- What a disconnect answers, by what became of the reset and of the request. A failed reset comes
before a failed request, and that before a refusal. -/
def disconnectReply :
    Except TransportError Unit → Except CardError Response → Except CardError Reply
  | .error e, _ => .error (.transport e)
  | .ok _, .error e => .error e
  | .ok _, .ok r =>
    if r.status = ⟨0x90, 0x00⟩ then .ok .done else .error (.refused .resetChannels r.status)

theorem bind_eq_disconnectReply (r : Except TransportError Unit)
    (result : Except CardError Response) :
    ((r.mapError CardError.transport).bind fun _ =>
        (result.bind ChannelRequest.resetChannels.check).map fun _ => Reply.done) =
      disconnectReply r result := by
  cases r with
  | error e => rfl
  | ok _ => cases result with
    | error e => rfl
    | ok answer =>
      show (ChannelRequest.resetChannels.check answer).map _ = _
      simp only [ChannelRequest.check, Response.isSuccess, StatusWord.isSuccess, disconnectReply,
        decide_eq_true_eq]
      by_cases hstatus : answer.status = .success
      · rw [if_pos hstatus]
        exact (if_pos hstatus).symm
      · rw [if_neg hstatus]
        exact (if_neg hstatus).symm

variable {σ : Type} [Transport σ]

/-- The reset of a device, if it is asked for. -/
def resetIf (reset : Bool) (device : σ) : Except TransportError Unit × σ :=
  if reset then Transport.reset device else (.ok (), device)

theorem step_disconnect_eq {card : Card σ} (hbasic : BasicOpen card) (reset : Bool) :
    let request := card.transmit 0 manageClose
    let last := resetIf reset request.2.device
    card.step (.disconnect reset) =
      (disconnectReply last.1 request.1,
        { card with
          device := last.2
          epoch := card.epoch + 1
          basic := request.2.basic.endSession
          keys := none }) := by
  intro request last
  rcases htransmit : card.basic.transmit (card.epoch + 1) card.device manageClose with
    ⟨result, ch', after⟩
  have hrequest : request = (result, card.keep 0 ch' after) := by
    rw [hbasic.transmit_eq] at htransmit
    rw [show request = _ from hbasic.transmit manageClose, htransmit]
  have hlast : last = resetIf reset after :=
    congrArg (fun r : _ × Card σ => resetIf reset r.2.device) hrequest
  rw [step_disconnect htransmit, bind_eq_disconnectReply, hlast, hrequest]
  cases reset <;> rfl

/-- The outcome of a disconnect: the reply, and what is left of the card. -/
structure Disconnected (card : Card (Recorder σ)) (reset : Bool) (reply : Except CardError Reply)
    (after : Card (Recorder σ)) : Prop where
  closed : ∀ k ch, card.handle? (k + 1) = some ch →
    after.handle? (k + 1) = some ch ∧ ch.isClosed after.epoch = true
  plain : after.basic.session = none
  isOpen : after.basic.isClosed after.epoch = false
  keys : after.keys = none
  sent : after.device.sent = card.device.sent ++
    if card.isPresent then [closeWire card.basic.session] else []
  resets : after.device.resets = card.device.resets + reset.toNat
  device : after.device = (resetIf reset (card.transmit 0 manageClose).2.device).2
  reply : reply = disconnectReply (resetIf reset (card.transmit 0 manageClose).2.device).1
    (card.transmit 0 manageClose).1

section Outcome

variable {card : Card (Recorder σ)}

/-- The request adds itself to what has been sent, and leaves the resets alone. -/
theorem BasicOpen.record_of_manageClose (h : BasicOpen card) :
    (card.transmit 0 manageClose).2.device.sent = card.device.sent ++
        (if card.isPresent then [closeWire card.basic.session] else []) ∧
      (card.transmit 0 manageClose).2.device.resets = card.device.resets := by
  rw [h.device_of_request manageClose_sentAs]
  split
  · exact ⟨rfl, rfl⟩
  · exact ⟨(List.append_nil _).symm, rfl⟩

theorem resetIf_record (reset : Bool) (device : Recorder σ) :
    (resetIf reset device).2.sent = device.sent ∧
      (resetIf reset device).2.resets = device.resets + reset.toNat := by
  cases reset <;> exact ⟨rfl, rfl⟩

theorem disconnected (hbasic : BasicOpen card)
    (hlogical : ∀ k ch, card.handle? (k + 1) = some ch → card.Logical (k + 1) ch)
    (hroom : card.epoch.toNat + 1 < 2 ^ 64) (reset : Bool) :
    card.Disconnected reset (card.step (.disconnect reset)).1
      (card.step (.disconnect reset)).2 := by
  obtain ⟨_, e⟩ := card.exists_effect (.disconnect reset)
  have hbasic' := hbasic.effect e
  have hclosed (k : Nat) (ch : Channel) (hch : card.handle? (k + 1) = some ch) :=
    ((hlogical k ch hch).isClosed_iff e hroom).mpr (.inr rfl)
  obtain ⟨hsent, hresets⟩ := hbasic.record_of_manageClose
  obtain ⟨hsent', hresets'⟩ := resetIf_record reset (card.transmit 0 manageClose).2.device
  rw [step_disconnect_eq hbasic] at hbasic' hclosed ⊢
  exact
    { closed := fun k ch hch => ⟨hch, hclosed k ch hch⟩
      plain := rfl
      isOpen := hbasic'.isClosed _
      keys := rfl
      sent := hsent'.trans hsent
      resets := by rw [hresets', hresets]
      device := rfl
      reply := rfl }

end Outcome

/-! ## Afterwards -/

/-- The card has no keys, and the channel under the handle, if any, no session. -/
structure Unsecured (card : Card σ) (handle : Nat) : Prop where
  keys : card.keys = none
  session : ∀ ch, card.handle? handle = some ch → ch.session = none

section Afterwards

variable {card card' : Card σ} {s : Step σ} {sent : Option Bytes}
  {reply : Except CardError Reply} {handle : Nat}

/-- Sessions start with keys that a step brings or the card has. -/
theorem Unsecured.effect (h : card.Unsecured handle) (e : Effect card s sent (reply, card'))
    (hkeys : s.bringsKeys handle = false) : card'.Unsecured handle := by
  have hattached : card.attached? s ≠ some handle := by
    cases s with
    | establish => cases hkeys
    | establishOn target keys =>
      have hne : target ≠ handle := by simpa [Step.bringsKeys] using hkeys
      simp [attached?, hne]
    | _ => simp [attached?]
  refine ⟨?_, fun ch' hch' => ?_⟩
  · rw [e.keys_after, h.keys]
    cases s with
    | establish => cases hkeys
    | _ => rfl
  · by_contra hsome
    obtain ⟨session, hsession⟩ := Option.ne_none_iff_exists'.mp hsome
    rcases e.session_eq hattached hch' hsession with
      ⟨ch, before, hch, hbefore, -⟩ | ⟨-, -, hcard, -⟩
    · rw [h.session ch hch] at hbefore
      cases hbefore
    · rw [h.keys] at hcard
      cases hcard

theorem Unsecured.run (h : card.Unsecured handle) (steps : List (Step σ))
    (hkeys : ∀ s ∈ steps, s.bringsKeys handle = false) : (card.run steps).Unsecured handle := by
  induction steps generalizing card with
  | nil => exact h
  | cons s rest ih =>
    obtain ⟨sent, e⟩ := card.exists_effect s
    exact ih (h.effect e (hkeys s List.mem_cons_self))
      fun s' hs' => hkeys s' (List.mem_cons_of_mem s hs')

end Afterwards

/-- **Every disconnect takes effect.** Whether the device is connected, whatever it answers and
whether its reset fails, a disconnect of any card that can be reached has the same outcome: the
handles on logical channels are closed, the basic channel is open and plain, and the keys are gone.
Whatever steps follow, the basic channel and all that is opened later stay plain until keys are
brought, and a handle that is opened later closes only when it is asked to or at the next
disconnect. -/
theorem disconnect_takes_effect (device : Recorder σ) (settings : CardSettings)
    (steps : List (Step (Recorder σ))) (reset : Bool) (later : List (Step (Recorder σ)))
    (hfew : (steps ++ .disconnect reset :: later).countP Step.disconnects < 2 ^ 64) :
    let card := (fresh device settings).run steps
    let after := (card.step (.disconnect reset)).2
    card.Disconnected reset (card.step (.disconnect reset)).1 after ∧
    (∀ i ch, i = 0 ∨ after.handle? i = none → (after.run later).handle? i = some ch →
      (∀ s ∈ later, s.bringsKeys i = false) → ch.session = none) ∧
    ∀ i ch, after.handle? i = none → (after.run later).handle? i = some ch →
      (ch.isClosed (after.run later).epoch = true ↔
        ∃ s ∈ after.since i later, s.closes i = true) := by
  intro card after
  rw [List.countP_append, countP_disconnects_cons] at hfew
  have hfew' : steps.countP Step.disconnects + (1 + later.countP Step.disconnects) < 2 ^ 64 := hfew
  have hroom : (fresh device settings).epoch.toNat + steps.countP Step.disconnects < 2 ^ 64 := by
    show 0 + _ < _
    omega
  have hepoch : card.epoch.toNat = 0 + steps.countP Step.disconnects := toNat_epoch_run steps hroom
  have hlogical (k : Nat) (ch : Channel) (hch : card.handle? (k + 1) = some ch) :
      card.Logical (k + 1) ch := (isClosed_since_iff steps rfl hch hroom).1
  have hnow : card.epoch.toNat + 1 < 2 ^ 64 := by omega
  have houtcome : card.Disconnected reset (card.step (.disconnect reset)).1 after :=
    disconnected (.run device settings steps) hlogical hnow reset
  refine ⟨houtcome, fun i ch hnew hch hkeys => ?_, fun i ch hnone hch => ?_⟩
  · have hplain : after.Unsecured i := by
      refine ⟨houtcome.keys, fun ch' hch' => ?_⟩
      rcases hnew with rfl | hnone
      · obtain rfl : after.basic = ch' := Option.some.inj hch'
        exact houtcome.plain
      · rw [hnone] at hch'
        cases hch'
    exact (hplain.run later hkeys).session ch hch
  · obtain ⟨_, e⟩ := card.exists_effect (.disconnect reset)
    have hnext : after.epoch.toNat = card.epoch.toNat + 1 := e.toNat_epoch hnow
    exact (isClosed_since_iff later hnone hch (by omega)).2

/-- A secured card on which both the request and the reset fail, and a channel that is opened
afterwards. -/
theorem disconnect_takes_effect_failing :
    let device : ScriptedDevice :=
      ⟨[⟨.ok [0x01, 0x90, 0x00], false⟩, ⟨.error .timeout, false⟩, ⟨.ok [0x02, 0x90, 0x00], false⟩],
        true, some .device⟩
    let card := (fresh (Recorder.mk device [] 0) { securesLogicalChannels := true }).run
      [.openLogical, .establish ⟨Counter.block 0, Counter.block 1⟩]
    let after := (card.step (.disconnect true)).2
    card.Disconnected true (.error (.transport .device)) after ∧
      ∃ ch, (after.run [.openLogical]).handle? 2 = some ch ∧ ch.session = none ∧
        ch.isClosed (after.run [.openLogical]).epoch = false := by
  intro device card after
  obtain ⟨houtcome, hplain, hclosed⟩ := disconnect_takes_effect (Recorder.mk device [] 0)
    { securesLogicalChannels := true } [.openLogical, .establish ⟨Counter.block 0, Counter.block 1⟩]
    true [.openLogical] (by decide)
  have hreply : (card.step (.disconnect true)).1 = .error (.transport .device) := by decide
  have hnone : after.handle? 2 = none := by rfl
  have hnew : (after.run [.openLogical]).handle? 2 = some ⟨⟨2⟩, 1, none, false⟩ := by decide
  have hsince : after.since 2 [.openLogical] = [] := by rfl
  refine ⟨hreply ▸ houtcome, _, hnew, hplain 2 _ (.inr hnone) hnew (by simp [Step.bringsKeys]), ?_⟩
  rw [← Bool.not_eq_true, hclosed 2 _ hnone hnew, hsince]
  simp

end Card

end SmartCard
