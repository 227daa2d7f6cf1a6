import SmartCard.Proofs.Card.LiveHandles
import SmartCard.Proofs.Card.Requests

/-!
# Opening channels

`Card.Sound` holds in every state that a card can reach (`Sound.run`), and `keys_run_iff` says which
keys the card has there. With these, `opening` says all about a request for a channel: exactly when
it brings a handle and on which channel, whether and how the handle is secured, and which error it
brings otherwise.
-/

namespace SmartCard

namespace Card

variable {σ : Type}

/-! ## The keys of the card -/

/-- The keys that were established last, with no disconnect since. -/
def LastKeys (steps : List (Step σ)) (keys : SessionKeys) : Prop :=
  ∃ before after, steps = before ++ .establish keys :: after ∧
    ∀ s ∈ after, s.disconnects = false ∧ ∀ keys', s ≠ .establish keys'

theorem not_lastKeys_nil {keys : SessionKeys} : ¬ LastKeys ([] : List (Step σ)) keys := by
  rintro ⟨before, after, h, -⟩
  exact absurd h (by simp)

theorem lastKeys_concat_iff {steps : List (Step σ)} {s : Step σ} {keys : SessionKeys} :
    LastKeys (steps ++ [s]) keys ↔
      s = .establish keys ∨
        LastKeys steps keys ∧ s.disconnects = false ∧ ∀ keys', s ≠ .establish keys' := by
  constructor
  · rintro ⟨before, after, h, hafter⟩
    rcases List.eq_nil_or_concat' after with rfl | ⟨after, last, rfl⟩
    · exact .inl (List.singleton_inj.mp (List.append_inj' h rfl).2)
    · rw [← List.cons_append, ← List.append_assoc] at h
      obtain ⟨hsteps, hlast⟩ := List.append_inj' h rfl
      obtain rfl := List.singleton_inj.mp hlast
      exact .inr ⟨⟨before, after, hsteps, fun s hs => hafter s (List.mem_append_left _ hs)⟩,
        hafter s (List.mem_append_right _ (List.mem_singleton_self s))⟩
  · rintro (rfl | ⟨⟨before, after, rfl, hafter⟩, hs⟩)
    · exact ⟨steps, [], rfl, by simp⟩
    · refine ⟨before, after ++ [s], by simp, fun s' hs' => ?_⟩
      rcases List.mem_append.mp hs' with hs' | hs'
      · exact hafter s' hs'
      · obtain rfl := List.mem_singleton.mp hs'
        exact hs

variable [Transport σ]

/-- A card has the keys that were established last, if it was not disconnected since. The induction
is on the steps so far, the last one first. -/
theorem keys_run_iff (device : σ) (settings : CardSettings) (steps : List (Step σ))
    {keys : SessionKeys} :
    ((fresh device settings).run steps).keys = some keys ↔ LastKeys steps keys := by
  induction steps using List.reverseRecOn with
  | nil => exact iff_of_false (by simp [fresh]) not_lastKeys_nil
  | append_singleton steps s ih =>
    obtain ⟨_, e⟩ := ((fresh device settings).run steps).exists_effect s
    rw [run_append, lastKeys_concat_iff, ← ih]
    show (((fresh device settings).run steps).step s).2.keys = _ ↔ _
    rw [e.keys_after]
    cases s <;> simp [Step.keysAfter, Step.disconnects]

/-! ## The invariant -/

/-- The basic channel is open, and secured if the card has keys. Every other handle is on a logical
channel that can be addressed. -/
structure Sound (card : Card σ) : Prop extends BasicOpen card where
  secured : card.keys.isSome → card.basic.session.isSome
  numbers : ∀ k ch, card.handle? (k + 1) = some ch →
    1 ≤ ch.number.number.val ∧ ch.number.number.val ≤ 19

section Invariant

variable {card card' : Card σ} {s : Step σ} {sent : Option Bytes} {reply : Except CardError Reply}

/-- Only a step that starts or ends a session on the basic channel can change whether it is secured,
and such a step brings keys or takes them away. -/
theorem Effect.secured (e : Effect card s sent (reply, card')) (hbasic : BasicOpen card)
    (hsecured : card.keys.isSome → card.basic.session.isSome) (hkeys : card'.keys.isSome) :
    card'.basic.session.isSome := by
  by_cases hkeep : s.replaces 0 = false
  · have hsame : card'.keys = card.keys := by
      rw [e.keys_after]
      cases s with
      | establish | disconnect => cases hkeep
      | _ => rfl
    obtain ⟨-, session, hch, hmap⟩ := e.continues hbasic rfl (hbasic.isClosed _) hkeep
    obtain ⟨s, hs⟩ := Option.isSome_iff_exists.mp (hsecured (hsame ▸ hkeys))
    rw [hs] at hmap
    rw [show card'.basic = _ from Option.some.inj hch]
    cases session with
    | none => cases hmap
    | some _ => rfl
  · cases e with
    | unreachable => exact hsecured hkeys
    | establish => rfl
    | @establishOn target _ keys h =>
      obtain rfl : target = 0 := by simpa [Step.replaces] using hkeep
      rfl
    | disconnect => cases hkeys
    | basicClose | close => simp [Step.replaces] at hkeep
    | _ => exact (hkeep rfl).elim

end Invariant

/-- **Invariant.** Every card that can be reached is sound. -/
theorem Sound.run (device : σ) (settings : CardSettings) (steps : List (Step σ)) :
    ((fresh device settings).run steps).Sound where
  toBasicOpen := .run device settings steps
  secured := by
    let P (card : Card σ) : Prop :=
      BasicOpen card ∧ (card.keys.isSome → card.basic.session.isSome)
    have keeps {card card' : Card σ} {s : Step σ} {sent : Option Bytes}
        {reply : Except CardError Reply} (h : P card) (e : Effect card s sent (reply, card')) :
        P card' :=
      ⟨h.1.effect e, e.secured h.1 h.2⟩
    exact (run_induction keeps ⟨⟨rfl, rfl⟩, id⟩ steps).2
  numbers k ch hch := by
    have hlogical := LogicalNumbers.run device settings steps (k + 1) ch (Nat.succ_ne_zero k) hch
    have hne : ch.number.number ≠ 0 := fun h =>
      absurd (congrArg LogicalChannel.mk h) (of_decide_eq_false hlogical)
    have hpos : ch.number.number.val ≠ 0 := fun h => hne (Fin.ext h)
    omega

/-! ## The request -/

/-- The request for a channel brings no handle, for this reason. -/
inductive Unopened (card : Card σ) : CardError → Prop
  | absent (h : card.isPresent = false) : Unopened card .notConnected
  | failed {e : CardError} (present : card.isPresent = true)
      (h : (card.transmit 0 manageOpen).1 = .error e) : Unopened card e
  | unassigned {r : Response} {e : CardError} (present : card.isPresent = true)
      (h : (card.transmit 0 manageOpen).1 = .ok r) (reason : Unassigned r e) : Unopened card e

/-- The card has its keys and settings still, and the basic channel is as it was, but for the
counter of its session. -/
structure Undisturbed (card after : Card σ) : Prop where
  keys : after.keys = card.keys
  settings : after.settings = card.settings
  basic : Continues card 0 card.basic after

omit [Transport σ] in
theorem newChannel_eq (card : Card σ) (n : LogicalChannel) :
    card.newChannel n =
      { number := n
        epoch := card.epoch
        session :=
          if card.settings.securesLogicalChannels then card.keys.map .start else none } := by
  unfold newChannel
  cases card.keys with
  | none =>
    rw [Option.map_none, ite_self]
  | some keys =>
    simp only [Option.map_some]
    split <;> rfl

omit [Transport σ] in
theorem session_newChannel_iff {card : Card σ} {n : LogicalChannel} {s : Session} :
    (card.newChannel n).session = some s ↔
      card.settings.securesLogicalChannels = true ∧ card.keys = some s.keys ∧
        s.counter = .zero := by
  obtain ⟨keys, counter⟩ := s
  rw [newChannel_eq]
  cases card.settings.securesLogicalChannels <;> simp [Session.start, eq_comm]

section Request

variable {card : Card σ} {ch : Channel} {e : CardError}

/-- A new channel takes nothing from the card that the request could have changed. -/
theorem BasicOpen.openLogical_eq (h : BasicOpen card) :
    card.openLogical =
      match (card.transmit 0 manageOpen).1.bind assignedNumber with
      | .error e => (.error e, (card.transmit 0 manageOpen).2)
      | .ok n => (.ok (card.newChannel n),
          { (card.transmit 0 manageOpen).2 with
            logical := card.logical ++ [card.newChannel n] }) := by
  unfold openLogical
  rw [h.transmit]
  rfl

theorem openLogical_eq_ok_iff (h : BasicOpen card) :
    card.openLogical.1 = .ok ch ↔
      ∃ r n, (card.transmit 0 manageOpen).1 = .ok r ∧ Assigns r n ∧ ch = card.newChannel n := by
  rw [h.openLogical_eq]
  cases (card.transmit 0 manageOpen).1 with
  | error e => simp [Except.bind]
  | ok r =>
    cases hassigned : assignedNumber r with
    | error e =>
      have hnone (n : LogicalChannel) : ¬ Assigns r n := by
        rw [← assignedNumber_eq_ok_iff, hassigned]
        simp
      simp [Except.bind, hassigned, hnone]
    | ok n =>
      have honly (m : LogicalChannel) : Assigns r m ↔ m = n := by
        rw [← assignedNumber_eq_ok_iff, hassigned]
        simp [eq_comm]
      simp [Except.bind, hassigned, honly, eq_comm]

theorem transmit_zero_of_absent (absent : card.isPresent = false) (c : Command) :
    card.transmit 0 c = (.error .notConnected, card) :=
  onChannel_of_error (if_neg (by simp [absent]))

theorem openLogical_eq_error_iff (h : BasicOpen card) :
    card.openLogical.1 = .error e ↔ card.Unopened e := by
  rw [h.openLogical_eq]
  constructor
  · intro heq
    cases present : card.isPresent with
    | false =>
      rw [transmit_zero_of_absent present] at heq
      cases heq
      exact .absent present
    | true =>
      cases hrequest : (card.transmit 0 manageOpen).1 with
      | error e' =>
        rw [hrequest] at heq
        cases heq
        exact .failed present hrequest
      | ok r =>
        simp only [hrequest, Except.bind] at heq
        cases hassigned : assignedNumber r with
        | error e' =>
          rw [hassigned] at heq
          cases heq
          exact .unassigned present hrequest (assignedNumber_eq_error_iff.mp hassigned)
        | ok n =>
          rw [hassigned] at heq
          cases heq
  · rintro (absent | ⟨_, hrequest⟩ | ⟨_, hrequest, reason⟩)
    · rw [transmit_zero_of_absent absent]
      rfl
    · rw [hrequest]
      rfl
    · simp only [hrequest, Except.bind, assignedNumber_of_unassigned reason]

theorem undisturbed_transmit (h : BasicOpen card) (c : Command) :
    card.Undisturbed (card.transmit 0 c).2 := by
  obtain ⟨_, t⟩ := card.basic.exists_transmission card.epoch card.device c
  obtain ⟨hbasic, hkeys⟩ := t.session_of_open (h.isClosed _)
  rw [h.transmit]
  exact ⟨rfl, rfl, rfl, _, congrArg some hbasic, hkeys⟩

theorem undisturbed_openLogical (h : BasicOpen card) :
    card.Undisturbed card.openLogical.2 := by
  obtain ⟨keys, settings, epoch, channel⟩ := undisturbed_transmit h manageOpen
  rw [h.openLogical_eq]
  split <;> exact ⟨keys, settings, epoch, channel⟩

/-- A request that brings no handle makes none. -/
theorem logical_openLogical (h : BasicOpen card) :
    card.openLogical.2.logical = card.logical ++ card.openLogical.1.toOption.toList := by
  rw [h.openLogical_eq, h.transmit]
  split
  · exact (List.append_nil _).symm
  · rfl

end Request

/-- **Opening a channel.** Every card that can be reached is sound, and has the keys that were
established last since the last disconnect. It opens a channel exactly if the device is connected
and its answer to the request, as the basic channel hands it on, assigns one. The handle is then on
this channel, open, and secured exactly if the settings say so and the card has keys: with a session
of its own, under these keys and at its start. Otherwise there is no new handle, and the error says
why. Either way the rest of the card stays as it was, and a connected device is sent the request,
as `openWire` spells it out, and nothing else. -/
theorem opening (device : σ) (settings : CardSettings) (steps : List (Step σ)) :
    let card := (fresh device settings).run steps
    let request := card.transmit 0 manageOpen
    let after := card.openLogical.2
    card.Sound ∧ (∀ keys, card.keys = some keys ↔ LastKeys steps keys) ∧
    (∀ n, (∃ ch, card.openLogical.1 = .ok ch ∧ ch.number = n) ↔
      card.isPresent = true ∧ ∃ r, request.1 = .ok r ∧ Assigns r n) ∧
    (∀ ch, card.openLogical.1 = .ok ch → ch.isClosed after.epoch = false ∧
      ∀ s, ch.session = some s ↔
        settings.securesLogicalChannels = true ∧ LastKeys steps s.keys ∧ s.counter = .zero) ∧
    (∀ e, card.openLogical.1 = .error e ↔ card.Unopened e) ∧
    after.logical = card.logical ++ card.openLogical.1.toOption.toList ∧
    card.Undisturbed after ∧ after.device = request.2.device ∧
    request.2.device =
      if card.isPresent then (Transport.transmit card.device (openWire card.basic.session)).2
      else card.device := by
  intro card request after
  have hsound : card.Sound := .run device settings steps
  have hbasic : BasicOpen card := hsound.toBasicOpen
  have hkeys (keys : SessionKeys) : card.keys = some keys ↔ LastKeys steps keys :=
    keys_run_iff device settings steps
  have hafter : card.Undisturbed after := undisturbed_openLogical hbasic
  refine ⟨hsound, hkeys, fun n => ⟨?_, ?_⟩, fun ch hch => ?_,
    fun e => openLogical_eq_error_iff hbasic, logical_openLogical hbasic, hafter, ?_,
    hbasic.device_of_request manageOpen_sentAs⟩
  · rintro ⟨ch, hch, rfl⟩
    obtain ⟨r, n, hrequest, hassigns, rfl⟩ := (openLogical_eq_ok_iff hbasic).mp hch
    have present : card.isPresent = true := by
      by_contra hnot
      rw [transmit_zero_of_absent (by simpa using hnot)] at hrequest
      cases hrequest
    rw [(card.newChannel_fields n).1]
    exact ⟨present, r, hrequest, hassigns⟩
  · rintro ⟨-, r, hrequest, hassigns⟩
    exact ⟨card.newChannel n, (openLogical_eq_ok_iff hbasic).mpr ⟨r, n, hrequest, hassigns, rfl⟩,
      (card.newChannel_fields n).1⟩
  · obtain ⟨r, n, -, -, rfl⟩ := (openLogical_eq_ok_iff hbasic).mp hch
    obtain ⟨-, hepoch, hclosed⟩ := card.newChannel_fields n
    have hsettings : card.settings = settings := settings_run _ steps
    refine ⟨?_, fun s => ?_⟩
    · rw [hafter.basic.epoch]
      simp [Channel.isClosed, Channel.isStale, hepoch, hclosed]
    · rw [session_newChannel_iff, hsettings, hkeys]
  · show card.openLogical.2.device = _
    rw [hbasic.openLogical_eq]
    split <;> rfl

/-- The last number that can be assigned, and the first that cannot. -/
example :
    let device : ScriptedDevice := ⟨[⟨.ok [19, 0x90, 0x00], false⟩, ⟨.ok [20, 0x90, 0x00], false⟩],
      true, none⟩
    let card := fresh device {}
    card.openLogical.1 = .ok { number := ⟨19⟩, epoch := 0 } ∧
      card.openLogical.2.openLogical.1 = .error (.apdu (.channelNumber 20)) := by decide

end Card

end SmartCard
