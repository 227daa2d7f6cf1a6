import SmartCard.Proofs.Card.Calls
import SmartCard.Transport.Script

/-!
# Closed handles

A handle on a logical channel closes when it is asked to, or when the card is disconnected, whatever
comes of it. One step: `Card.Effect.isClosed_iff`; from the opening of the handle on:
`Card.isClosed_since_iff`. A closed handle answers that it is closed and sends nothing:
`Card.silent`. `closed_for_good` puts these together.

A disconnect closes handles by the card's epoch, which wraps around. So all this is about fewer than
`2 ^ 64` disconnects.
-/

namespace SmartCard

/-! ## Steps that close handles -/

namespace Step

variable {σ : Type}

def disconnects : Step σ → Bool
  | .disconnect _ => true
  | .establish _ | .establishOn _ _ | .openBasic | .openLogical | .transmit _ _ => false
  | .transmitBytes _ _ | .close _ | .limits _ | .device _ => false

/-- The step asks the handle to close, or disconnects the card. -/
def closes (handle : Nat) (s : Step σ) : Bool := s.asksToClose handle || s.disconnects

end Step

/-! ## Closedness of a channel -/

namespace Channel

variable {ch ch' : Channel} {now later : UInt64}

theorem isClosed_iff (logical : ch.number.isBasic = false) :
    ch.isClosed now = true ↔ ch.closed = true ∨ now ≠ ch.epoch := by
  simp [isClosed, isStale, logical]

theorem isSecured_of_closed (h : ch.isClosed now = true) : ch.isSecured now = false := by
  simp [isSecured, h]

variable {σ : Type} [Transport σ] {device after : σ} {c : Command} {sent : Option Bytes}
  {result : Except CardError Response}

/-- Transmission closes for good what it finds closed, and nothing else. -/
theorem Transmission.isClosed (t : ch.Transmission now device c sent (result, ch', after)) :
    ch'.isClosed later = (ch.isClosed now || ch.isClosed later) := by
  by_cases hclosed : ch.isClosed now = true
  · cases t with
    | closed =>
      rw [hclosed]
      rfl
    | absent hopen =>
      rw [hopen] at hclosed
      cases hclosed
    | unencodable ready | failed ready | answered ready | refused ready | securedFailed ready
    | securedAnswered ready =>
      rw [ready.isOpen] at hclosed
      cases hclosed
  · have hopen : ch.isClosed now = false := by simpa using hclosed
    rw [hopen, (t.session_of_open hopen).1]
    rfl

end Channel

namespace Card

variable {σ : Type} [Transport σ] {card card' : Card σ} {s : Step σ} {sent : Option Bytes}
  {reply : Except CardError Reply} {handle : Nat} {ch : Channel}

/-! ## The epoch counts disconnects -/

theorem Effect.epoch_eq (e : Effect card s sent (reply, card')) :
    card'.epoch = if s.disconnects then card.epoch + 1 else card.epoch := by
  cases e with
  | unreachable through? => cases s <;> first | rfl | cases through?
  | establishOn | transmit | transmitBytes | close | notOpened => exact epoch_keep
  | @opened _ ch' _ _ after => exact @epoch_keep _ card 0 ch' after
  | _ => rfl

theorem Effect.toNat_epoch (e : Effect card s sent (reply, card'))
    (hroom : card.epoch.toNat + s.disconnects.toNat < 2 ^ 64) :
    card'.epoch.toNat = card.epoch.toNat + s.disconnects.toNat := by
  rw [e.epoch_eq]
  cases hs : s.disconnects with
  | false => rfl
  | true =>
    rw [hs] at hroom
    rw [if_pos rfl, UInt64.toNat_add]
    exact Nat.mod_eq_of_lt hroom

omit [Transport σ] in
theorem countP_disconnects_cons (s : Step σ) (rest : List (Step σ)) :
    (s :: rest).countP Step.disconnects = s.disconnects.toNat + rest.countP Step.disconnects := by
  rw [List.countP_cons, Nat.add_comm]
  cases s.disconnects <;> rfl

theorem toNat_epoch_run (steps : List (Step σ))
    (hroom : card.epoch.toNat + steps.countP Step.disconnects < 2 ^ 64) :
    (card.run steps).epoch.toNat = card.epoch.toNat + steps.countP Step.disconnects := by
  induction steps generalizing card with
  | nil => rfl
  | cons s rest ih =>
    obtain ⟨sent, e⟩ := card.exists_effect s
    rw [countP_disconnects_cons] at hroom ⊢
    have hstep := e.toNat_epoch (by omega)
    rw [run_cons, ih (by omega), hstep, Nat.add_assoc]

/-! ## One handle -/

/-- A logical channel under a handle, opened in this epoch or before. -/
structure Logical (card : Card σ) (handle : Nat) (ch : Channel) : Prop where
  positive : handle ≠ 0
  handle? : card.handle? handle = some ch
  number : ch.number.isBasic = false
  epoch : ch.epoch.toNat ≤ card.epoch.toNat

/-- A disconnect makes every logical channel stale. -/
theorem Logical.isClosed_iff (h : card.Logical handle ch) (e : Effect card s sent (reply, card'))
    (hroom : card.epoch.toNat + s.disconnects.toNat < 2 ^ 64) :
    ch.isClosed card'.epoch = true ↔ ch.isClosed card.epoch = true ∨ s.disconnects = true := by
  have hepoch := e.epoch_eq
  by_cases hdisconnects : s.disconnects = true
  · have hlater := e.toNat_epoch hroom
    rw [hdisconnects, Bool.toNat_true] at hlater
    have hstale : card'.epoch ≠ ch.epoch := fun heq => by
      have := h.epoch
      rw [← heq] at this
      omega
    exact iff_of_true ((Channel.isClosed_iff h.number).mpr (.inr hstale)) (.inr hdisconnects)
  · rw [if_neg hdisconnects] at hepoch
    rw [hepoch, or_iff_left hdisconnects]

/-- A step keeps the handle, and closes it exactly if it should. -/
theorem Effect.isClosed_iff (e : Effect card s sent (reply, card')) (h : card.Logical handle ch)
    (hroom : card.epoch.toNat + s.disconnects.toNat < 2 ^ 64) :
    ∃ ch', card'.Logical handle ch' ∧ ch'.number = ch.number ∧
      (ch'.isClosed card'.epoch = true ↔
        ch.isClosed card.epoch = true ∨ s.closes handle = true) := by
  have hstale := h.isClosed_iff e hroom
  have hepoch := e.toNat_epoch hroom
  obtain ⟨ch', hch', fate⟩ := e.fate h.handle?
  have logical (hnumber : ch'.number = ch.number) (heq : ch'.epoch = ch.epoch) :
      card'.Logical handle ch' :=
    ⟨h.positive, hch', by rw [hnumber]; exact h.number, by
      have := h.epoch
      rw [heq]
      omega⟩
  unfold Step.closes
  generalize card.calls handle s = calls at fate
  cases fate with
  | untouched _ hclose =>
    have hnot : s.asksToClose handle = false := by
      by_contra hasks
      rcases hclose (by simpa using hasks) with hzero | hbasic
      · exact h.positive hzero
      · rw [h.number] at hbasic
        cases hbasic
    exact ⟨ch, logical rfl rfl, rfl, by simpa [hnot] using hstale⟩
  | attached keys hattached =>
    have hnot : s.asksToClose handle = false := by
      cases s <;> first | rfl | cases hattached
    refine ⟨_, logical rfl rfl, rfl, ?_⟩
    show ch.isClosed card'.epoch = true ↔ _
    simpa [hnot] using hstale
  | transmitted _ hnot t =>
    obtain ⟨hnumber, heq⟩ := t.number_epoch
    refine ⟨ch', logical hnumber heq, hnumber, ?_⟩
    rw [t.isClosed, Bool.or_eq_true, hstale, hnot]
    simp
  | closed t =>
    obtain ⟨hnumber, heq⟩ := t.number_epoch
    refine ⟨_, logical hnumber heq, hnumber, iff_of_true rfl (.inr ?_)⟩
    simp [Step.asksToClose]
  | disconnected hzero => exact absurd hzero h.positive

theorem Logical.run (h : card.Logical handle ch) (steps : List (Step σ))
    (hroom : card.epoch.toNat + steps.countP Step.disconnects < 2 ^ 64) :
    ∃ ch', (card.run steps).Logical handle ch' ∧ ch'.number = ch.number ∧
      (ch'.isClosed (card.run steps).epoch = true ↔
        ch.isClosed card.epoch = true ∨ ∃ s ∈ steps, s.closes handle = true) := by
  induction steps generalizing card ch with
  | nil => exact ⟨ch, h, rfl, by simp⟩
  | cons s rest ih =>
    obtain ⟨sent, e⟩ := card.exists_effect s
    rw [countP_disconnects_cons] at hroom
    obtain ⟨ch₁, h₁, hnumber₁, hclosed₁⟩ := e.isClosed_iff h (by omega)
    have hepoch := e.toNat_epoch (by omega)
    obtain ⟨ch₂, h₂, hnumber₂, hclosed₂⟩ := ih h₁ (by omega)
    refine ⟨ch₂, h₂, hnumber₂.trans hnumber₁, ?_⟩
    rw [run_cons, hclosed₂, hclosed₁, or_assoc]
    simp

/-! ## From the opening on -/

/-- The steps of a run since the handle has been there. -/
def since (card : Card σ) (handle : Nat) : List (Step σ) → List (Step σ)
  | [] => []
  | s :: rest =>
    if (card.handle? handle).isSome then s :: rest else (card.step s).2.since handle rest

theorem since_of_some (hch : card.handle? handle = some ch) (steps : List (Step σ)) :
    card.since handle steps = steps := by
  cases steps with
  | nil => rfl
  | cons s rest => exact if_pos (by simp [hch])

omit [Transport σ] in
/-- A channel that has just been opened is open, in this epoch. -/
theorem newChannel_fields (card : Card σ) (n : LogicalChannel) :
    (card.newChannel n).number = n ∧ (card.newChannel n).epoch = card.epoch ∧
      (card.newChannel n).closed = false := by
  unfold newChannel
  cases card.keys with
  | none => exact ⟨rfl, rfl, rfl⟩
  | some keys =>
    simp only
    split <;> exact ⟨rfl, rfl, rfl⟩

/-- What is under a handle that was not there before. -/
theorem Effect.logical_of_opened (e : Effect card s sent (reply, card'))
    (hnone : card.handle? handle = none) (hch : card'.handle? handle = some ch) :
    card'.Logical handle ch ∧ ch.isClosed card'.epoch = false := by
  have hepoch := e.epoch_eq
  obtain ⟨rfl, rfl, n, hn, rfl⟩ := e.opened_handle hnone hch
  obtain ⟨hnumber, hopened, hclosed⟩ := card.newChannel_fields n
  have hnow : (card.newChannel n).epoch = card'.epoch := hopened.trans hepoch.symm
  refine ⟨⟨Nat.succ_ne_zero _, hch, by rw [hnumber, hn], ?_⟩, ?_⟩
  · exact Nat.le_of_eq (congrArg UInt64.toNat hnow)
  · simp [Channel.isClosed, Channel.isStale, hclosed, hnow]

/-- A handle is closed exactly if it should have been closed since it was opened. -/
theorem isClosed_since_iff (steps : List (Step σ)) (hnone : card.handle? handle = none)
    (hch : (card.run steps).handle? handle = some ch)
    (hroom : card.epoch.toNat + steps.countP Step.disconnects < 2 ^ 64) :
    (card.run steps).Logical handle ch ∧ (ch.isClosed (card.run steps).epoch = true ↔
      ∃ s ∈ card.since handle steps, s.closes handle = true) := by
  induction steps generalizing card with
  | nil =>
    rw [run_nil, hnone] at hch
    cases hch
  | cons s rest ih =>
    obtain ⟨sent, e⟩ := card.exists_effect s
    rw [countP_disconnects_cons] at hroom
    have hepoch := e.toNat_epoch (by omega)
    have hsince : card.since handle (s :: rest) = (card.step s).2.since handle rest :=
      if_neg (by simp [hnone])
    rw [hsince]
    cases hnew : (card.step s).2.handle? handle with
    | none =>
      rw [run_cons] at hch ⊢
      exact ih hnew hch (by omega)
    | some opened =>
      obtain ⟨hlogical, hopen⟩ := e.logical_of_opened hnone hnew
      obtain ⟨ch', h', -, hclosed⟩ := hlogical.run rest (by omega)
      obtain rfl : ch' = ch := Option.some.inj (h'.handle?.symm.trans hch)
      refine ⟨h', ?_⟩
      rw [since_of_some hnew, run_cons, hclosed, hopen]
      simp

/-! ## Silence -/

/-- The handle is closed, says so to everything, and has nothing sent. -/
structure Silent (card : Card σ) (handle : Nat) (ch : Channel) : Prop where
  handle? : card.handle? handle = some ch
  closed : ch.isClosed card.epoch = true
  unsecured : ch.isSecured card.epoch = false
  transmit : ∀ c, (card.step (.transmit handle c)).1 = .error (.channelClosed ch.number)
  transmitBytes : ∀ bytes, (card.step (.transmitBytes handle bytes)).1 =
    match Command.parse bytes with
    | .error e => .error (.apdu e)
    | .ok _ => .error (.channelClosed ch.number)
  close : (card.step (.close handle)).1 = .error (.channelClosed ch.number)
  quiet : ∀ s, s.handle? = some handle → (card.step s).2.device = card.device

theorem channel_of_logical (h : card.Logical handle ch) : card.channel handle = .ok ch := by
  cases handle with
  | zero => exact absurd rfl h.positive
  | succ k =>
    rw [channel, show card.logical[k]? = some ch from h.handle?]

section Closed

variable (h : card.Logical handle ch) (hclosed : ch.isClosed card.epoch = true)

include h hclosed

theorem step_transmit_of_closed (c : Command) :
    card.step (.transmit handle c) =
      (.error (.channelClosed ch.number), card.keep handle ch.shut card.device) := by
  simp only [step, Card.transmit, onChannel_of_ok (channel_of_logical h),
    Channel.transmit_of_closed hclosed]
  rfl

theorem step_close_of_closed :
    card.step (.close handle) =
      (.error (.channelClosed ch.number), card.keep handle ch.shut card.device) := by
  simp only [step, Card.close, onChannel_of_ok (channel_of_logical h), Channel.close, h.number,
    Channel.transmit_of_closed hclosed]
  rfl

theorem step_transmitBytes_of_closed (bytes : Bytes) :
    card.step (.transmitBytes handle bytes) =
      match Command.parse bytes with
      | .error e => (.error (.apdu e), card)
      | .ok _ => (.error (.channelClosed ch.number), card.keep handle ch.shut card.device) := by
  simp only [step, Card.transmitBytes, onChannel_of_ok (channel_of_logical h),
    Channel.transmitBytes]
  cases Command.parse bytes with
  | error e =>
    show (_, card.keep handle ch card.device) = _
    rw [keep_self h.handle?]
    rfl
  | ok c =>
    simp only [Channel.transmit_of_closed hclosed]
    rfl

/-- A closed handle is silent. -/
theorem silent : card.Silent handle ch where
  handle? := h.handle?
  closed := hclosed
  unsecured := Channel.isSecured_of_closed hclosed
  transmit c := by rw [step_transmit_of_closed h hclosed]
  transmitBytes bytes := by
    rw [step_transmitBytes_of_closed h hclosed]
    cases Command.parse bytes <;> rfl
  close := by rw [step_close_of_closed h hclosed]
  quiet s hs := by
    cases s with
    | establish | disconnect | device => cases hs
    | openBasic | openLogical => exact absurd (Option.some.inj hs).symm h.positive
    | limits => rfl
    | establishOn =>
      cases hs
      simp only [step, Card.establishOn, onChannel_of_ok (channel_of_logical h)]
      rfl
    | transmit =>
      cases hs
      rw [step_transmit_of_closed h hclosed, device_keep]
    | transmitBytes _ bytes =>
      cases hs
      rw [step_transmitBytes_of_closed h hclosed]
      cases Command.parse bytes <;> rfl
    | close =>
      cases hs
      rw [step_close_of_closed h hclosed, device_keep]

end Closed

/-- **Closed for good.** A handle on a logical channel is closed exactly if it has been asked to
close, or the card disconnected, since it was opened, whatever came of that. From then on it is
silent, whatever steps follow. The basic channel is never closed. -/
theorem closed_for_good (device : σ) (settings : CardSettings) (steps : List (Step σ)) {k : Nat}
    {ch : Channel} (hch : ((fresh device settings).run steps).handle? (k + 1) = some ch)
    (hfew : steps.countP Step.disconnects < 2 ^ 64) :
    let start := fresh device settings
    let card := start.run steps
    (ch.isClosed card.epoch = true ↔
        ∃ s ∈ start.since (k + 1) steps, s.closes (k + 1) = true) ∧
      (ch.isClosed card.epoch = true → ∀ later,
        (steps ++ later).countP Step.disconnects < 2 ^ 64 →
          ∃ ch', ch'.number = ch.number ∧ (card.run later).Silent (k + 1) ch') ∧
      card.basic.isClosed card.epoch = false := by
  intro start card
  have hroom : start.epoch.toNat + steps.countP Step.disconnects < 2 ^ 64 := by
    show 0 + _ < _
    omega
  have hepoch : card.epoch.toNat = 0 + steps.countP Step.disconnects := toNat_epoch_run steps hroom
  obtain ⟨hlogical, hsince⟩ := isClosed_since_iff steps rfl hch hroom
  refine ⟨hsince, fun hclosed later hfew' => ?_, (BasicOpen.run device settings steps).isClosed _⟩
  rw [List.countP_append] at hfew'
  have hroom' : card.epoch.toNat + later.countP Step.disconnects < 2 ^ 64 := by omega
  obtain ⟨ch', hlogical', hnumber, hclosed'⟩ := hlogical.run later hroom'
  exact ⟨ch', hnumber, silent hlogical' (hclosed'.mpr (.inl hclosed))⟩

/-- A request to close that is never answered, and then an attempt to secure the handle. -/
theorem closed_for_good_unanswered :
    let start := fresh (ScriptedDevice.mk [⟨.ok [0x01, 0x90, 0x00], false⟩] true none) {}
    let steps := [.openLogical, .close 1]
    let later := [.establishOn 1 ⟨Counter.block 0, Counter.block 1⟩]
    ∃ ch, (start.run steps).handle? 1 = some ch ∧ ch.isClosed (start.run steps).epoch = true ∧
      ∃ ch', ch'.number = ch.number ∧ ((start.run steps).run later).Silent 1 ch' := by
  intro start steps later
  have hch : (start.run steps).handle? 1 = some ⟨⟨1⟩, 0, none, true⟩ := by rfl
  have hsince : start.since 1 steps = [.close 1] := by rfl
  have hmem : .close 1 ∈ start.since 1 steps := by
    rw [hsince]
    exact List.mem_singleton_self _
  obtain ⟨hclosed, hsilent, -⟩ := closed_for_good start.device {} steps hch (by decide)
  have h := hclosed.mpr ⟨.close 1, hmem, rfl⟩
  exact ⟨_, hch, h, hsilent h later (by decide)⟩

end Card

end SmartCard
