import SmartCard.Card.Run
import SmartCard.Proofs.Card.Transmission

/-!
# Steps of a card, case by case

`Card.Effect` lists all that a step can do: what it sends, what it answers and what it leaves.
`Card.exists_effect`: nothing else can happen.
-/

namespace SmartCard

namespace Card

variable {σ : Type}

/-! ## Handles -/

/-- The channel under a handle, whether it can be reached or not. -/
def handle? (card : Card σ) : Nat → Option Channel
  | 0 => some card.basic
  | k + 1 => card.logical[k]?

/-- The card with what has become of one of its channels and of its device. -/
def keep (card : Card σ) (handle : Nat) (ch : Channel) (device : σ) : Card σ :=
  { card.setChannel ch handle with device }

variable {card : Card σ} {handle other : Nat} {ch ch' : Channel} {device : σ}

@[simp] theorem epoch_keep : (card.keep handle ch device).epoch = card.epoch := by
  cases handle <;> rfl

@[simp] theorem device_keep : (card.keep handle ch device).device = device := rfl

@[simp] theorem keys_keep : (card.keep handle ch device).keys = card.keys := by
  cases handle <;> rfl

@[simp] theorem settings_keep : (card.keep handle ch device).settings = card.settings := by
  cases handle <;> rfl

theorem handle?_keep_self (h : card.handle? handle = some ch) :
    (card.keep handle ch' device).handle? handle = some ch' := by
  cases handle with
  | zero => rfl
  | succ k =>
    have hk : k < card.logical.length := (List.getElem?_eq_some_iff.mp h).1
    exact List.getElem?_set_self hk

theorem handle?_keep_of_ne (hne : handle ≠ other) :
    (card.keep handle ch device).handle? other = card.handle? other := by
  cases handle with
  | zero => cases other with
    | zero => exact absurd rfl hne
    | succ k => rfl
  | succ j => cases other with
    | zero => rfl
    | succ k =>
      have hjk : j ≠ k := fun h => hne (congrArg _ h)
      exact List.getElem?_set_ne hjk

/-- Channels opened later leave the earlier handles alone. -/
theorem handle?_append (h : card.handle? handle = some ch) (more : List Channel) :
    { card with logical := card.logical ++ more }.handle? handle = some ch := by
  cases handle with
  | zero => exact h
  | succ k =>
    have hk : k < card.logical.length := (List.getElem?_eq_some_iff.mp h).1
    show (card.logical ++ more)[k]? = some ch
    rw [List.getElem?_append_left hk]
    exact h

/-- Putting back what was there changes nothing. -/
theorem keep_self (h : card.handle? handle = some ch) : card.keep handle ch card.device = card := by
  cases handle with
  | zero =>
    obtain rfl : card.basic = ch := Option.some.inj h
    rfl
  | succ k =>
    obtain ⟨hk, rfl⟩ := List.getElem?_eq_some_iff.mp h
    show { card with logical := card.logical.set k card.logical[k] } = card
    rw [List.set_getElem_self]

variable [Transport σ]

theorem handle?_of_channel (h : card.channel handle = .ok ch) : card.handle? handle = some ch := by
  cases handle with
  | zero =>
    simp only [channel] at h
    split at h
    next =>
      cases h
      rfl
    next => cases h
  | succ k =>
    simp only [channel] at h
    split at h
    next hk =>
      cases h
      exact hk
    next => cases h

/-- There is one channel under a handle. -/
theorem eq_of_channel (h : card.channel handle = .ok ch) (hch : card.handle? handle = some ch') :
    ch = ch' :=
  Option.some.inj ((handle?_of_channel h).symm.trans hch)

end Card

/-! ## Effects -/

variable {σ : Type} [Transport σ]

/-- The handle that a step goes through, if it can fail for want of it. -/
def Step.handle? : Step σ → Option Nat
  | .establishOn handle _ | .transmit handle _ | .transmitBytes handle _ => some handle
  | .close handle | .limits handle => some handle
  | .openBasic | .openLogical => some 0
  | .establish _ | .disconnect _ | .device _ => none

/-- What the step makes of the keys of a card. -/
def Step.keysAfter (keys? : Option SessionKeys) : Step σ → Option SessionKeys
  | .establish keys => some keys
  | .disconnect _ => none
  | .establishOn _ _ | .openBasic | .openLogical | .transmit _ _ => keys?
  | .transmitBytes _ _ | .close _ | .limits _ | .device _ => keys?

namespace Card

/-- What becomes of a step: the bytes that it has the device sent, if any, and then the reply and
the card. -/
inductive Effect (card : Card σ) : Step σ → Option Bytes → Except CardError Reply × Card σ → Prop
  | unreachable {s : Step σ} {handle : Nat} {e : CardError} (target : s.handle? = some handle)
      (h : card.channel handle = .error e) : Effect card s none (.error e, card)
  | establish (keys : SessionKeys) :
      Effect card (.establish keys) none (.ok .done, card.establish keys)
  | establishOn {handle : Nat} {ch : Channel} (keys : SessionKeys)
      (h : card.channel handle = .ok ch) :
      Effect card (.establishOn handle keys) none
        (.ok .done, card.keep handle (ch.secure keys) card.device)
  | openBasic {ch : Channel} (h : card.channel 0 = .ok ch) :
      Effect card .openBasic none (.ok (.channel (ch.state card.epoch)), card)
  | limits {handle : Nat} {ch : Channel} (h : card.channel handle = .ok ch) :
      Effect card (.limits handle) none (.ok (.limits card.settings), card)
  | transmit {handle : Nat} {c : Command} {ch ch' : Channel} {sent : Option Bytes}
      {result : Except CardError Response} {after : σ} (h : card.channel handle = .ok ch)
      (t : ch.Transmission card.epoch card.device c sent (result, ch', after)) :
      Effect card (.transmit handle c) sent (result.map .response, card.keep handle ch' after)
  | unparsable {handle : Nat} {bytes : Bytes} {ch : Channel} {e : ApduError}
      (h : card.channel handle = .ok ch) (parsed : Command.parse bytes = .error e) :
      Effect card (.transmitBytes handle bytes) none (.error (.apdu e), card)
  | transmitBytes {handle : Nat} {bytes : Bytes} {c : Command} {ch ch' : Channel}
      {sent : Option Bytes} {result : Except CardError Response} {after : σ}
      (h : card.channel handle = .ok ch) (parsed : Command.parse bytes = .ok c)
      (t : ch.Transmission card.epoch card.device c sent (result, ch', after)) :
      Effect card (.transmitBytes handle bytes) sent
        ((result.map Response.encode).map .bytes, card.keep handle ch' after)
  | basicClose {handle : Nat} {ch : Channel} (h : card.channel handle = .ok ch)
      (basic : ch.number.isBasic = true) :
      Effect card (.close handle) none (.error .basicChannelClose, card)
  | close {handle : Nat} {ch ch' : Channel} {sent : Option Bytes}
      {result : Except CardError Response} {after : σ} (h : card.channel handle = .ok ch)
      (logical : ch.number.isBasic = false)
      (t : ch.Transmission card.epoch card.device manageClose sent (result, ch', after)) :
      Effect card (.close handle) sent
        ((result.bind ChannelRequest.closeChannel.check).map fun _ => .done,
          card.keep handle ch'.shut after)
  | notOpened {ch ch' : Channel} {sent : Option Bytes} {result : Except CardError Response}
      {after : σ} {e : CardError} (h : card.channel 0 = .ok ch)
      (t : ch.Transmission card.epoch card.device manageOpen sent (result, ch', after))
      (assigned : result.bind assignedNumber = .error e) :
      Effect card .openLogical sent (.error e, card.keep 0 ch' after)
  | opened {ch ch' : Channel} {sent : Option Bytes} {result : Except CardError Response}
      {after : σ} {n : LogicalChannel} (h : card.channel 0 = .ok ch)
      (t : ch.Transmission card.epoch card.device manageOpen sent (result, ch', after))
      (assigned : result.bind assignedNumber = .ok n) :
      Effect card .openLogical sent
        (.ok (.channel ((card.newChannel n).state card.epoch)),
          { card.keep 0 ch' after with logical := card.logical ++ [card.newChannel n] })
  | disconnect {reset : Bool} {ch' : Channel} {sent : Option Bytes}
      {result : Except CardError Response} {after : σ}
      (t : card.basic.Transmission (card.epoch + 1) card.device manageClose sent
        (result, ch', after)) :
      Effect card (.disconnect reset) sent
        (((if reset then (Transport.reset after).1 else .ok ()).mapError .transport).bind fun _ =>
            (result.bind ChannelRequest.resetChannels.check).map fun _ => .done,
          { card with
            device := if reset then (Transport.reset after).2 else after
            epoch := card.epoch + 1
            basic := ch'.endSession
            keys := none })
  | device (change : σ → σ) :
      Effect card (.device change) none (.ok .done, { card with device := change card.device })

/-! ## Every step has an effect -/

theorem onChannel_of_error {α : Type} {card : Card σ} {handle : Nat} {e : CardError}
    {act : Channel → UInt64 → σ → Except CardError α × Channel × σ}
    (h : card.channel handle = .error e) : card.onChannel handle act = (.error e, card) := by
  unfold onChannel
  rw [h]

theorem onChannel_of_ok {α : Type} {card : Card σ} {handle : Nat} {ch : Channel}
    {act : Channel → UInt64 → σ → Except CardError α × Channel × σ}
    (h : card.channel handle = .ok ch) :
    card.onChannel handle act =
      ((act ch card.epoch card.device).1,
        card.keep handle (act ch card.epoch card.device).2.1
          (act ch card.epoch card.device).2.2) := by
  unfold onChannel
  rw [h]
  rfl

/-- A step whose handle cannot be reached does nothing. -/
theorem step_of_unreachable {card : Card σ} {s : Step σ} {handle : Nat} {e : CardError}
    (target : s.handle? = some handle) (h : card.channel handle = .error e) :
    card.step s = (.error e, card) := by
  cases s with
  | establish | disconnect | device => cases target
  | establishOn =>
    cases target
    simp only [step, Card.establishOn, onChannel_of_error h]
    rfl
  | transmit =>
    cases target
    simp only [step, Card.transmit, onChannel_of_error h]
    rfl
  | transmitBytes =>
    cases target
    simp only [step, Card.transmitBytes, onChannel_of_error h]
    rfl
  | close =>
    cases target
    simp only [step, Card.close, onChannel_of_error h]
    rfl
  | openBasic | limits =>
    cases target
    simp only [step, h]
    rfl
  | openLogical =>
    cases target
    simp only [step, Card.openLogical, Card.transmit, onChannel_of_error h]
    rfl

section Reachable

variable {card : Card σ} {handle : Nat} {ch : Channel}

theorem exists_effect_transmitBytes (h : card.channel handle = .ok ch) (bytes : Bytes) :
    ∃ sent, Effect card (.transmitBytes handle bytes) sent
      (card.step (.transmitBytes handle bytes)) := by
  simp only [step, Card.transmitBytes, onChannel_of_ok h]
  cases parsed : Command.parse bytes with
  | error e =>
    refine ⟨none, ?_⟩
    simp only [Channel.transmitBytes, parsed, keep_self (handle?_of_channel h)]
    exact .unparsable h parsed
  | ok c =>
    obtain ⟨sent, t⟩ := ch.exists_transmission card.epoch card.device c
    refine ⟨sent, ?_⟩
    simp only [Channel.transmitBytes, parsed]
    exact .transmitBytes h parsed t

theorem exists_effect_close (h : card.channel handle = .ok ch) :
    ∃ sent, Effect card (.close handle) sent (card.step (.close handle)) := by
  simp only [step, Card.close, onChannel_of_ok h]
  by_cases basic : ch.number.isBasic = true
  · refine ⟨none, ?_⟩
    simp only [Channel.close, basic, if_true, keep_self (handle?_of_channel h)]
    exact .basicClose h basic
  · have logical : ch.number.isBasic = false := by simpa using basic
    obtain ⟨sent, t⟩ := ch.exists_transmission card.epoch card.device manageClose
    rcases htransmit : ch.transmit card.epoch card.device manageClose with ⟨result, ch', after⟩
    rw [htransmit] at t
    have hreply :
        ((result.bind ChannelRequest.closeChannel.check).map fun _ => ()).map (fun _ => .done) =
          (result.bind ChannelRequest.closeChannel.check).map fun _ => Reply.done := by
      cases result.bind ChannelRequest.closeChannel.check <;> rfl
    refine ⟨sent, ?_⟩
    simp only [Channel.close, logical, Bool.false_eq_true, if_false, htransmit, hreply]
    exact .close h logical t

theorem exists_effect_openLogical (h : card.channel 0 = .ok ch) :
    ∃ sent, Effect card .openLogical sent (card.step .openLogical) := by
  obtain ⟨sent, t⟩ := ch.exists_transmission card.epoch card.device manageOpen
  refine ⟨sent, ?_⟩
  simp only [step, Card.openLogical, Card.transmit, onChannel_of_ok h]
  cases assigned : (ch.transmit card.epoch card.device manageOpen).1.bind assignedNumber with
  | error e => exact .notOpened h t assigned
  | ok n => exact .opened h t assigned

theorem exists_effect_of_reachable {s : Step σ} (target : s.handle? = some handle)
    (h : card.channel handle = .ok ch) : ∃ sent, Effect card s sent (card.step s) := by
  cases s with
  | establish | disconnect | device => cases target
  | establishOn _ keys =>
    cases target
    refine ⟨none, ?_⟩
    simp only [step, Card.establishOn, onChannel_of_ok h]
    exact .establishOn keys h
  | openBasic =>
    cases target
    refine ⟨none, ?_⟩
    simp only [step, h]
    exact .openBasic h
  | openLogical =>
    cases target
    exact exists_effect_openLogical h
  | transmit _ c =>
    cases target
    obtain ⟨sent, t⟩ := ch.exists_transmission card.epoch card.device c
    refine ⟨sent, ?_⟩
    simp only [step, Card.transmit, onChannel_of_ok h]
    exact .transmit h t
  | transmitBytes _ bytes =>
    cases target
    exact exists_effect_transmitBytes h bytes
  | close =>
    cases target
    exact exists_effect_close h
  | limits =>
    cases target
    refine ⟨none, ?_⟩
    simp only [step, h]
    exact .limits h

end Reachable

theorem step_disconnect {card : Card σ} {reset : Bool} {result : Except CardError Response}
    {ch' : Channel} {after : σ}
    (h : card.basic.transmit (card.epoch + 1) card.device manageClose = (result, ch', after)) :
    card.step (.disconnect reset) =
      (((if reset then (Transport.reset after).1 else .ok ()).mapError .transport).bind fun _ =>
          (result.bind ChannelRequest.resetChannels.check).map fun _ => .done,
        { card with
          device := if reset then (Transport.reset after).2 else after
          epoch := card.epoch + 1
          basic := ch'.endSession
          keys := none }) := by
  have hreply (r : Except TransportError Unit) :
      (do
        r.mapError .transport
        let answer ← result
        discard (ChannelRequest.resetChannels.check answer) : Except CardError Unit).map
          (fun _ => Reply.done) =
        (r.mapError CardError.transport).bind fun _ =>
          (result.bind ChannelRequest.resetChannels.check).map fun _ => Reply.done := by
    cases r with
    | error e => rfl
    | ok _ => cases result with
      | error e => rfl
      | ok answer =>
        show Except.map _ (discard (ChannelRequest.resetChannels.check answer)) =
          (ChannelRequest.resetChannels.check answer).map _
        cases ChannelRequest.resetChannels.check answer <;> rfl
  simp only [step, disconnect, h]
  cases reset with
  | true => exact Prod.ext (hreply _) rfl
  | false => exact Prod.ext (hreply _) rfl

/-- A step that goes through no handle always takes effect. -/
theorem exists_effect_of_handleless {card : Card σ} {s : Step σ} (target : s.handle? = none) :
    ∃ sent, Effect card s sent (card.step s) := by
  cases s with
  | establish keys => exact ⟨none, .establish keys⟩
  | device change => exact ⟨none, .device change⟩
  | disconnect reset =>
    obtain ⟨sent, t⟩ := card.basic.exists_transmission (card.epoch + 1) card.device manageClose
    refine ⟨sent, ?_⟩
    rcases htransmit : card.basic.transmit (card.epoch + 1) card.device manageClose with
      ⟨result, ch', after⟩
    rw [htransmit] at t
    rw [step_disconnect htransmit]
    exact .disconnect t
  | _ => cases target

/-- **Inversion.** One of the cases applies to every step. -/
theorem exists_effect (card : Card σ) (s : Step σ) :
    ∃ sent, Effect card s sent ((card.step s).1, (card.step s).2) := by
  cases target : s.handle? with
  | none => exact exists_effect_of_handleless target
  | some handle =>
    cases h : card.channel handle with
    | error e =>
      rw [step_of_unreachable target h]
      exact ⟨none, .unreachable target h⟩
    | ok ch => exact exists_effect_of_reachable target h

/-! ## Runs -/

/-- A card that nothing has been asked of yet. -/
def fresh (device : σ) (settings : CardSettings) : Card σ := { device, settings }

@[simp] theorem run_nil (card : Card σ) : card.run [] = card := rfl

@[simp] theorem run_cons (card : Card σ) (s : Step σ) (rest : List (Step σ)) :
    card.run (s :: rest) = (card.step s).2.run rest := rfl

/-- What every effect keeps holds along every run. -/
theorem run_induction {P : Card σ → Prop}
    (keeps : ∀ {card card' : Card σ} {s : Step σ} {sent : Option Bytes}
      {reply : Except CardError Reply}, P card → Effect card s sent (reply, card') → P card')
    {card : Card σ} (h : P card) (steps : List (Step σ)) : P (card.run steps) := by
  induction steps generalizing card with
  | nil => exact h
  | cons s rest ih =>
    obtain ⟨sent, e⟩ := card.exists_effect s
    exact ih (keeps h e)

/-! ## Keys and settings -/

section Kept

variable {card card' : Card σ} {s : Step σ} {sent : Option Bytes} {reply : Except CardError Reply}

theorem Effect.keys_after (e : Effect card s sent (reply, card')) :
    card'.keys = s.keysAfter card.keys := by
  cases e with
  | unreachable target => cases s <;> first | rfl | cases target
  | establishOn | transmit | transmitBytes | close | notOpened => exact keys_keep
  | @opened _ ch' _ _ after => exact @keys_keep _ card 0 ch' after
  | _ => rfl

theorem Effect.settings_eq (e : Effect card s sent (reply, card')) :
    card'.settings = card.settings := by
  cases e with
  | establishOn | transmit | transmitBytes | close | notOpened => exact settings_keep
  | @opened _ ch' _ _ after => exact @settings_keep _ card 0 ch' after
  | _ => rfl

theorem settings_run (card : Card σ) (steps : List (Step σ)) :
    (card.run steps).settings = card.settings := by
  refine run_induction (P := fun c => c.settings = card.settings) ?_ rfl steps
  intro before after s sent reply h e
  exact e.settings_eq.trans h

end Kept

/-! ## The basic channel -/

/-- The basic channel is what it says, and open. -/
structure BasicOpen (card : Card σ) : Prop where
  number : card.basic.number = .basic
  closed : card.basic.closed = false

namespace BasicOpen

variable {card : Card σ} {handle : Nat} {ch ch' : Channel} {device after : σ}

omit [Transport σ] in
theorem isClosed (h : BasicOpen card) (now : UInt64) : card.basic.isClosed now = false := by
  unfold Channel.isClosed Channel.isStale
  rw [h.number, h.closed]
  rfl

omit [Transport σ] in
theorem keep (h : BasicOpen card) (hch : handle = 0 → ch.number = .basic ∧ ch.closed = false) :
    BasicOpen (card.keep handle ch device) := by
  cases handle with
  | zero => exact ⟨(hch rfl).1, (hch rfl).2⟩
  | succ k => exact ⟨h.number, h.closed⟩

/-- The basic channel takes no notice of the epoch. -/
theorem transmit_eq (h : BasicOpen card) (now : UInt64) (c : Command) :
    card.basic.transmit now card.device c = card.basic.transmit card.epoch card.device c := by
  unfold Channel.transmit
  rw [h.isClosed now, h.isClosed card.epoch]

/-- If the device is gone it makes no difference whether the channel is tried. -/
theorem transmit (h : BasicOpen card) (c : Command) :
    card.transmit 0 c =
      ((card.basic.transmit card.epoch card.device c).1,
        card.keep 0 (card.basic.transmit card.epoch card.device c).2.1
          (card.basic.transmit card.epoch card.device c).2.2) := by
  by_cases present : card.isPresent = true
  · exact onChannel_of_ok (if_pos present)
  · have absent : Transport.isConnected card.device = false := by simpa [isPresent] using present
    rw [Channel.transmit_of_absent (h.isClosed _) absent]
    exact onChannel_of_error (if_neg present)

theorem transmission (h : BasicOpen card) {now : UInt64} {c : Command} {sent : Option Bytes}
    {result : Except CardError Response}
    (t : card.basic.Transmission now device c sent (result, ch', after)) :
    ch'.number = .basic ∧ ch'.closed = false := by
  rw [(t.session_of_open (h.isClosed now)).1]
  exact ⟨h.number, h.closed⟩

/-- A channel that is transmitted on stays basic and open, if it was the basic channel. -/
theorem keep_transmission (h : BasicOpen card) (hch : card.channel handle = .ok ch) {c : Command}
    {sent : Option Bytes} {result : Except CardError Response}
    (t : ch.Transmission card.epoch card.device c sent (result, ch', after)) :
    BasicOpen (card.keep handle ch' after) := by
  apply h.keep
  rintro rfl
  obtain rfl : card.basic = ch := Option.some.inj (handle?_of_channel hch)
  exact h.transmission t

theorem effect {card' : Card σ} {s : Step σ} {sent : Option Bytes} {reply : Except CardError Reply}
    (h : BasicOpen card) (e : Effect card s sent (reply, card')) : BasicOpen card' := by
  cases e with
  | unreachable | openBasic | limits | unparsable | basicClose => exact h
  | establish | device => exact ⟨h.number, h.closed⟩
  | establishOn keys hch =>
    apply h.keep
    rintro rfl
    obtain rfl := Option.some.inj (handle?_of_channel hch)
    exact ⟨h.number, h.closed⟩
  | transmit hch t | transmitBytes hch _ t => exact h.keep_transmission hch t
  | close hch logical t =>
    apply h.keep
    rintro rfl
    obtain rfl := Option.some.inj (handle?_of_channel hch)
    rw [h.number] at logical
    cases logical
  | notOpened hch t => exact h.keep_transmission hch t
  | opened hch t =>
    have := h.keep_transmission hch t
    exact ⟨this.number, this.closed⟩
  | disconnect t =>
    obtain ⟨hnumber, hclosed⟩ := h.transmission t
    exact ⟨hnumber, hclosed⟩

/-- **Invariant.** The basic channel is open in every state that a card can reach. -/
theorem run (device : σ) (settings : CardSettings) (steps : List (Step σ)) :
    BasicOpen ((fresh device settings).run steps) :=
  run_induction effect ⟨rfl, rfl⟩ steps

end BasicOpen

end Card

end SmartCard
