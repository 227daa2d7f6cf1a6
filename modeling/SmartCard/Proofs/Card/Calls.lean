import SmartCard.Proofs.Card.Assignment
import SmartCard.Proofs.Card.Secured
import SmartCard.Proofs.Messaging.SessionRun

/-!
# The calls that a card makes on its sessions

`Exchange.monitored` is an exchange whose session keeps a list of the calls it takes; otherwise it
is the plain exchange (`secured_eq_monitored`). `Channel.calls` and `Card.calls` are the calls that
a transmission and a step make.

`Card.Fate` says what a step makes of the channel under one handle, `Card.Effect.fate` that nothing
else can become of it, and `Card.Effect.opened_handle` where new handles come from. So a session has
taken exactly the calls that the steps made on it: `Card.Effect.session_eq`.
-/

namespace SmartCard

variable {σ : Type} [Transport σ]

/-! ## Monitored exchanges -/

/-- A session, and the calls it has taken. -/
structure Monitor where
  session : Session
  calls : List SessionCall

namespace Monitor

def encrypt (m : Monitor) (c : Command) : Except MessagingError Command × Monitor :=
  let (result, session) := m.session.encrypt c
  (result, ⟨session, m.calls ++ [.encrypt c]⟩)

def decrypt (m : Monitor) (bytes : Bytes) : Except MessagingError Response × Monitor :=
  let (result, session) := m.session.decrypt bytes
  (result, ⟨session, m.calls ++ [.decrypt bytes]⟩)

end Monitor

/-- What the device answers to the protected form of a command. There is no answer if the session
refuses to protect the command, or the transmission fails. -/
def Session.answer? (s : Session) (device : σ) (c : Command) : Option Bytes :=
  if c.Protectable then (Transport.transmit device (s.wire c)).1.toOption else none

namespace Exchange

/-- The exchange in a session, with the calls on the session kept. -/
def monitored (m : Monitor) (device : σ) (c : Command) : Except CardError Response × Monitor × σ :=
  match m.encrypt c with
  | (.error e, m) => (.error (.messaging e), m, device)
  | (.ok wrapped, m) =>
    match wrapped.encode with
    | .error e => (.error (.apdu e), m, device)
    | .ok wire =>
      match Transport.transmit device wire with
      | (.error e, device) => (.error (.transport e), m, device)
      | (.ok answer, device) =>
        let (result, m) := m.decrypt answer
        (result.mapError .messaging, m, device)

/-- Keeping the calls changes nothing. -/
theorem secured_eq_monitored (m : Monitor) (device : σ) (c : Command) :
    secured m.session device c =
      ((monitored m device c).1, (monitored m device c).2.1.session,
        (monitored m device c).2.2) := by
  unfold secured monitored Monitor.encrypt
  rcases m.session.encrypt c with ⟨e | wrapped, s⟩
  · rfl
  · simp only
    cases wrapped.encode with
    | error e => rfl
    | ok wire =>
      simp only
      rcases Transport.transmit device wire with ⟨e | answer, after⟩ <;> rfl

/-- The command is wrapped, and the answer unwrapped if there is one. -/
theorem calls_monitored (s : Session) (device : σ) (c : Command) :
    (monitored ⟨s, []⟩ device c).2.1.calls =
      .encrypt c :: ((s.answer? device c).map .decrypt).toList := by
  unfold Session.answer?
  by_cases h : c.Protectable
  · have hencrypt : s.encrypt c = (.ok (s.keys.protectedForm s.counter.next c), s.step) :=
      Session.encrypt_eq_ok_iff.mpr ⟨h, rfl, rfl⟩
    have hencode := (@SessionKeys.encodable_protectedForm s.keys s.counter.next c h).encode
    unfold monitored Monitor.encrypt
    simp only [hencrypt, hencode, if_pos h]
    show (match Transport.transmit device (s.wire c) with
      | (.error e, device) => _
      | (.ok answer, device) => _ : Except CardError Response × Monitor × σ).2.1.calls = _
    rcases Transport.transmit device (s.wire c) with ⟨e | answer, after⟩ <;> rfl
  · obtain ⟨e, he⟩ := @SessionKeys.protect_of_not_protectable s.step.keys s.step.counter c h
    unfold monitored Monitor.encrypt Session.encrypt
    simp only [he, if_neg h]
    rfl

end Exchange

/-! ## The calls of a transmission -/

/-- The calls that transmitting a command makes on the session of the channel. -/
def Channel.calls (ch : Channel) (now : UInt64) (device : σ) (c : Command) : List SessionCall :=
  if ch.isClosed now || !Transport.isConnected device then []
  else match ch.session with
    | none => []
    | some s => (Exchange.monitored ⟨s, []⟩ device (ch.address c)).2.1.calls

namespace Channel

variable {ch ch' : Channel} {now : UInt64} {device after : σ} {c : Command} {s : Session}
  {sent : Option Bytes} {result : Except CardError Response}

theorem calls_of_ready (ready : ch.Ready now device) (secured : ch.session = some s) :
    ch.calls now device c =
      .encrypt (ch.address c) :: ((s.answer? device (ch.address c)).map .decrypt).toList := by
  unfold calls
  rw [if_neg (by simp [ready.isOpen, ready.connected]), secured]
  exact Exchange.calls_monitored s device (ch.address c)

theorem calls_of_not_ready (h : ¬ ch.Ready now device) : ch.calls now device c = [] := by
  unfold calls
  refine if_pos ?_
  by_contra hnot
  simp only [Bool.or_eq_true, Bool.not_eq_true', not_or, Bool.not_eq_true,
    Bool.not_eq_false] at hnot
  exact h ⟨hnot.1, hnot.2⟩

namespace Transmission

theorem ready_of_sent (t : ch.Transmission now device c sent (result, ch', after)) {wire : Bytes}
    (hsent : sent = some wire) : ch.Ready now device := by
  cases t with
  | closed | absent | unencodable | refused => cases hsent
  | failed ready | answered ready | securedFailed ready | securedAnswered ready => exact ready

/-- The session that a transmission leaves has taken exactly its calls. -/
theorem session_eq (t : ch.Transmission now device c sent (result, ch', after))
    (h : ch'.session = some s) :
    ∃ before, ch.session = some before ∧ s = (before.run (ch.calls now device c)).2 := by
  cases t with
  | closed => cases h
  | absent hopen absent =>
    refine ⟨s, h, ?_⟩
    rw [calls_of_not_ready fun ready => by simp [ready.connected] at absent]
    rfl
  | unencodable _ plain | failed _ plain | answered _ plain =>
    rw [plain] at h
    cases h
  | @refused before _ ready secured hnot =>
    cases h
    refine ⟨before, secured, ?_⟩
    rw [calls_of_ready ready secured, Session.answer?, if_neg hnot]
    rfl
  | @securedFailed before _ _ ready secured hc hsent =>
    cases h
    refine ⟨before, secured, ?_⟩
    rw [calls_of_ready ready secured, Session.answer?, if_pos hc, hsent]
    rfl
  | @securedAnswered before _ _ ready secured hc hsent =>
    cases h
    refine ⟨before, secured, ?_⟩
    rw [calls_of_ready ready secured, Session.answer?, if_pos hc, hsent]
    rfl

end Transmission

end Channel

/-- The step asks the handle to close. -/
def Step.asksToClose (handle : Nat) : Step σ → Bool
  | .close target => target = handle
  | .establish _ | .establishOn _ _ | .openBasic | .openLogical | .transmit _ _ => false
  | .transmitBytes _ _ | .limits _ | .disconnect _ | .device _ => false

namespace Card

/-! ## The calls of a step -/

/-- The handle and the command that a step transmits, if it comes to that: the basic channel is
never asked to close. -/
def request? (card : Card σ) : Step σ → Option (Nat × Command)
  | .close handle =>
    if (card.handle? handle).any (·.number.isBasic) then none else some (handle, manageClose)
  | s => s.request

/-- The calls that a step makes on the session of a handle. -/
def calls (card : Card σ) (handle : Nat) (s : Step σ) : List SessionCall :=
  match card.request? s, card.handle? handle with
  | some (target, c), some ch =>
    if target = handle then ch.calls card.epoch card.device c else []
  | _, _ => []

/-- The handle on which a step starts a session with keys that it brings. -/
def attached? (card : Card σ) : Step σ → Option Nat
  | .establish _ => some 0
  | .establishOn handle _ => if (card.channel handle).isOk then some handle else none
  | .openBasic | .openLogical | .transmit _ _ | .transmitBytes _ _ | .close _ | .limits _ => none
  | .disconnect _ | .device _ => none

variable {card card' : Card σ} {s : Step σ} {sent : Option Bytes}
  {reply : Except CardError Reply} {handle target : Nat} {ch ch' : Channel} {c : Command}

theorem calls_of_request (request : card.request? s = some (handle, c))
    (hch : card.handle? handle = some ch) :
    card.calls handle s = ch.calls card.epoch card.device c := by
  unfold calls
  rw [request, hch]
  exact if_pos rfl

theorem calls_of_ne (request : card.request? s = some (target, c)) (hne : target ≠ handle) :
    card.calls handle s = [] := by
  unfold calls
  rw [request]
  cases card.handle? handle with
  | none => rfl
  | some ch => exact if_neg hne

theorem calls_of_no_request (request : card.request? s = none) : card.calls handle s = [] := by
  unfold calls
  rw [request]

theorem calls_of_no_handle (h : card.handle? handle = none) : card.calls handle s = [] := by
  unfold calls
  rw [h]
  cases card.request? s <;> rfl

/-- Transmission in a session, as a step. -/
theorem step_transmit_of_secured {session : Session} (h : card.channel handle = .ok ch)
    (ready : ch.Ready card.epoch card.device) (secured : ch.session = some session) :
    card.step (.transmit handle c) =
      ((Exchange.secured session card.device (ch.address c)).1.map .response,
        card.keep handle
          { ch with session := some (Exchange.secured session card.device (ch.address c)).2.1 }
          (Exchange.secured session card.device (ch.address c)).2.2) := by
  simp only [step, Card.transmit, onChannel_of_ok h, Channel.transmit_of_secured ready secured]

/-- A step that sends something reaches an open handle. -/
theorem Effect.ready_of_sent {wire : Bytes} (hbasic : BasicOpen card)
    (e : Effect card s (some wire) (reply, card')) (request : s.request = some (handle, c))
    (hch : card.handle? handle = some ch) :
    card.request? s = some (handle, c) ∧ ch.Ready card.epoch card.device := by
  cases e with
  | transmit h t | notOpened h t | opened h t =>
    cases request
    cases eq_of_channel h hch
    exact ⟨rfl, t.ready_of_sent rfl⟩
  | transmitBytes h parsed t =>
    have hrequest := request
    simp only [Step.request, parsed] at request
    cases request
    cases eq_of_channel h hch
    exact ⟨hrequest, t.ready_of_sent rfl⟩
  | close h logical t =>
    cases request
    cases eq_of_channel h hch
    exact ⟨by simp [request?, handle?_of_channel h, logical], t.ready_of_sent rfl⟩
  | disconnect t =>
    cases request
    cases hch
    -- The basic channel is open in every epoch.
    exact ⟨rfl, hbasic.isClosed _, (t.ready_of_sent rfl).connected⟩

/-! ## Steps seen from one handle -/

/-- What a step makes of the channel `ch` under a handle, with the calls that it makes on the
session there. Only the basic channel is left alone when it is asked to close. -/
inductive Fate (card : Card σ) (handle : Nat) (ch : Channel) :
    Step σ → List SessionCall → Channel → Prop
  | untouched {s : Step σ} (h : card.attached? s ≠ some handle)
      (hclose : s.asksToClose handle = true → handle = 0 ∨ ch.number.isBasic = true) :
      Fate card handle ch s [] ch
  | attached {s : Step σ} (keys : SessionKeys) (h : card.attached? s = some handle) :
      Fate card handle ch s [] (ch.secure keys)
  | transmitted {s : Step σ} {c : Command} {ch' : Channel} {sent : Option Bytes}
      {result : Except CardError Response} {after : σ} (h : card.attached? s = none)
      (hclose : s.asksToClose handle = false)
      (t : ch.Transmission card.epoch card.device c sent (result, ch', after)) :
      Fate card handle ch s (ch.calls card.epoch card.device c) ch'
  | closed {ch' : Channel} {sent : Option Bytes} {result : Except CardError Response} {after : σ}
      (t : ch.Transmission card.epoch card.device manageClose sent (result, ch', after)) :
      Fate card handle ch (.close handle) (ch.calls card.epoch card.device manageClose) ch'.shut
  | disconnected {reset : Bool} {ch' : Channel} {sent : Option Bytes}
      {result : Except CardError Response} {after : σ} (basic : handle = 0)
      (t : ch.Transmission (card.epoch + 1) card.device manageClose sent (result, ch', after)) :
      Fate card handle ch (.disconnect reset) (ch.calls card.epoch card.device manageClose)
        ch'.endSession

theorem Fate.elsewhere (hattached : card.attached? s ≠ some handle)
    (hclose : s.asksToClose handle = false) : Fate card handle ch s [] ch :=
  .untouched hattached (by simp [hclose])

/-- Only the basic channel may be there and out of reach. -/
theorem eq_zero_of_unreachable {e : CardError} (h : card.channel handle = .error e)
    (hch : card.handle? handle = some ch) : handle = 0 := by
  cases handle with
  | zero => rfl
  | succ k =>
    rw [channel, show card.logical[k]? = some ch from hch] at h
    cases h

theorem not_ready_of_unreachable {e : CardError} (h : card.channel handle = .error e)
    (hch : card.handle? handle = some ch) (now : UInt64) : ¬ ch.Ready now card.device := by
  intro ready
  obtain rfl := eq_zero_of_unreachable h hch
  rw [channel, if_pos (show card.isPresent = true from ready.connected)] at h
  cases h

omit [Transport σ] in
/-- A step transmits on the handle that it goes through. -/
theorem target_of_request {through : Nat} (through? : s.handle? = some through)
    (request : card.request? s = some (target, c)) : target = through := by
  cases s with
  | establish | disconnect | device => cases through?
  | establishOn | openBasic | limits => cases request
  | openLogical | transmit =>
    cases through?
    cases request
    rfl
  | transmitBytes _ bytes =>
    cases through?
    obtain ⟨_, -, heq⟩ := Option.map_eq_some_iff.mp request
    cases heq
    rfl
  | close =>
    cases through?
    simp only [request?] at request
    split at request
    · cases request
    · cases request
      rfl

/-- Nothing comes of a step whose handle cannot be reached. -/
theorem Fate.of_unreachable {through : Nat} {e : CardError} (through? : s.handle? = some through)
    (h : card.channel through = .error e) (hch : card.handle? handle = some ch) :
    Fate card handle ch s (card.calls handle s) ch := by
  have hattached : card.attached? s ≠ some handle := by
    cases s with
    | establish => cases through?
    | establishOn =>
      cases through?
      simp [attached?, h, Except.isOk, Except.toBool]
    | _ => simp [attached?]
  have hcalls : card.calls handle s = [] := by
    cases request : card.request? s with
    | none => exact calls_of_no_request request
    | some wanted =>
      obtain ⟨target, c⟩ := wanted
      obtain rfl := target_of_request through? request
      by_cases heq : target = handle
      · subst heq
        rw [calls_of_request request hch]
        exact Channel.calls_of_not_ready (not_ready_of_unreachable h hch _)
      · exact calls_of_ne request heq
  rw [hcalls]
  refine .untouched hattached fun hclose => .inl ?_
  cases s with
  | close target =>
    obtain rfl : target = through := Option.some.inj through?
    obtain rfl : target = handle := by simpa [Step.asksToClose] using hclose
    exact eq_zero_of_unreachable h hch
  | _ => cases hclose

theorem Fate.of_no_request (hch : card.handle? handle = some ch)
    (hattached : card.attached? s ≠ some handle) (request : card.request? s = none) :
    Fate card handle ch s (card.calls handle s) ch := by
  rw [calls_of_no_request request]
  refine .untouched hattached fun hclose => .inr ?_
  cases s with
  | close target =>
    obtain rfl : target = handle := by simpa [Step.asksToClose] using hclose
    simpa [request?, hch] using request
  | _ => cases hclose

/-- A transmission on one handle, seen from any. -/
theorem exists_fate_of_transmission {ch₁ : Channel} {result : Except CardError Response} {after : σ}
    (hattached : card.attached? s = none) (hclose : s.asksToClose handle = false)
    (request : card.request? s = some (target, c)) (h : card.channel target = .ok ch₁)
    (t : ch₁.Transmission card.epoch card.device c sent (result, ch', after))
    (hch : card.handle? handle = some ch) :
    ∃ ch'', (card.keep target ch' after).handle? handle = some ch'' ∧
      Fate card handle ch s (card.calls handle s) ch'' := by
  by_cases heq : target = handle
  · subst heq
    obtain rfl := eq_of_channel h hch
    refine ⟨ch', handle?_keep_self hch, ?_⟩
    rw [calls_of_request request hch]
    exact .transmitted hattached hclose t
  · refine ⟨ch, (handle?_keep_of_ne heq).trans hch, ?_⟩
    rw [calls_of_ne request heq]
    exact .elsewhere (by simp [hattached]) hclose

/-- **Inversion, seen from a handle.** A handle stays, and one of the cases applies to it. -/
theorem Effect.fate (e : Effect card s sent (reply, card')) (hch : card.handle? handle = some ch) :
    ∃ ch', card'.handle? handle = some ch' ∧ Fate card handle ch s (card.calls handle s) ch' := by
  cases e with
  | unreachable through? h => exact ⟨ch, hch, .of_unreachable through? h hch⟩
  | openBasic | limits => exact ⟨ch, hch, .of_no_request hch (by simp [attached?]) rfl⟩
  | unparsable _ parsed =>
    refine ⟨ch, hch, .of_no_request hch (by simp [attached?]) ?_⟩
    simp [request?, Step.request, parsed, Except.toOption]
  | basicClose h basic =>
    refine ⟨ch, hch, .of_no_request hch (by simp [attached?]) ?_⟩
    simp [request?, handle?_of_channel h, basic]
  | device =>
    refine ⟨ch, ?_, .of_no_request hch (by simp [attached?]) rfl⟩
    cases handle <;> exact hch
  | establish keys =>
    rw [calls_of_no_request rfl]
    cases handle with
    | zero =>
      obtain rfl : card.basic = ch := Option.some.inj hch
      exact ⟨_, rfl, .attached keys rfl⟩
    | succ k => exact ⟨ch, hch, .elsewhere (by simp [attached?]) rfl⟩
  | @establishOn target ch₁ keys h =>
    rw [calls_of_no_request rfl]
    have hattached : card.attached? (.establishOn target keys) = some target := by
      simp [attached?, h, Except.isOk, Except.toBool]
    by_cases heq : target = handle
    · subst heq
      obtain rfl := eq_of_channel h hch
      exact ⟨_, handle?_keep_self hch, .attached keys hattached⟩
    · refine ⟨ch, (handle?_keep_of_ne heq).trans hch, .elsewhere ?_ rfl⟩
      rw [hattached]
      exact fun h => heq (Option.some.inj h)
  | transmit h t => exact exists_fate_of_transmission rfl rfl rfl h t hch
  | @transmitBytes target bytes c _ _ _ _ _ h parsed t =>
    have request : card.request? (.transmitBytes target bytes) = some (target, c) := by
      simp only [request?, Step.request, parsed]
      rfl
    exact exists_fate_of_transmission rfl rfl request h t hch
  | @close target ch₁ ch' _ _ _ h logical t =>
    have request : card.request? (.close target) = some (target, manageClose) := by
      simp [request?, handle?_of_channel h, logical]
    by_cases heq : target = handle
    · subst heq
      obtain rfl := eq_of_channel h hch
      refine ⟨_, handle?_keep_self hch, ?_⟩
      rw [calls_of_request request hch]
      exact .closed t
    · refine ⟨ch, (handle?_keep_of_ne heq).trans hch, ?_⟩
      rw [calls_of_ne request heq]
      exact .elsewhere (by simp [attached?]) (by simp [Step.asksToClose, heq])
  | notOpened h t => exact exists_fate_of_transmission rfl rfl rfl h t hch
  | opened h t =>
    obtain ⟨ch', hch', fate⟩ :=
      exists_fate_of_transmission (s := .openLogical) rfl rfl rfl h t hch
    exact ⟨ch', handle?_append hch' _, fate⟩
  | disconnect t =>
    cases handle with
    | zero =>
      obtain rfl : card.basic = ch := Option.some.inj hch
      refine ⟨_, rfl, ?_⟩
      rw [calls_of_request rfl rfl]
      exact .disconnected rfl t
    | succ k =>
      refine ⟨ch, hch, ?_⟩
      rw [calls_of_ne rfl (Nat.succ_ne_zero k).symm]
      exact .elsewhere (by simp [attached?]) rfl

/-! ## New handles -/

theorem handle?_keep_of_none {ch₁ : Channel} {device : σ} (h : card.channel target = .ok ch₁)
    (hnone : card.handle? handle = none) :
    (card.keep target ch' device).handle? handle = none := by
  have hne : target ≠ handle := by
    rintro rfl
    rw [handle?_of_channel h] at hnone
    cases hnone
  rw [handle?_keep_of_ne hne, hnone]

/-- A handle that was not there before is on a channel that has just been opened. -/
theorem Effect.opened_handle (e : Effect card s sent (reply, card'))
    (hnone : card.handle? handle = none) (hch : card'.handle? handle = some ch) :
    s = .openLogical ∧ handle = card.logical.length + 1 ∧
      ∃ n : LogicalChannel, n.isBasic = false ∧ ch = card.newChannel n := by
  have kept (h : card'.handle? handle = card.handle? handle) : False := by
    rw [h, hnone] at hch
    cases hch
  cases handle with
  | zero => cases hnone
  | succ k =>
    cases e with
    | unreachable | openBasic | limits | unparsable | basicClose => exact (kept rfl).elim
    | device | establish | disconnect => exact (kept rfl).elim
    | establishOn _ h => exact (kept ((handle?_keep_of_none h hnone).trans hnone.symm)).elim
    | transmit h | transmitBytes h | close h | notOpened h =>
      exact (kept ((handle?_keep_of_none h hnone).trans hnone.symm)).elim
    | @opened _ _ _ result _ n h t assigned =>
      have hlength : card.logical.length ≤ k := List.getElem?_eq_none_iff.mp hnone
      obtain ⟨hk, hget⟩ := List.getElem?_eq_some_iff.mp hch
      have heq : k = card.logical.length := by
        simp only [List.length_append, List.length_cons, List.length_nil] at hk
        omega
      subst heq
      have hbasic : n.isBasic = false := by
        cases result with
        | error e => cases assigned
        | ok r => exact (assignedNumber_eq_ok_iff.mp assigned).isBasic
      exact ⟨rfl, rfl, n, hbasic, by simpa using hget.symm⟩

omit [Transport σ] in
/-- A channel that has just been opened is secured with the keys of the card, if at all. -/
theorem session_newChannel {n : LogicalChannel} {session : Session}
    (h : (card.newChannel n).session = some session) :
    card.settings.securesLogicalChannels = true ∧ card.keys = some session.keys ∧
      session = .start session.keys := by
  unfold newChannel at h
  cases hkeys : card.keys with
  | none =>
    rw [hkeys] at h
    cases h
  | some keys =>
    simp only [hkeys] at h
    split at h
    next hsecures =>
      cases h
      exact ⟨hsecures, rfl, rfl⟩
    next => cases h

/-- The session of a handle on which the step does not start one has taken the calls of the step. -/
theorem Effect.session_of_kept (e : Effect card s sent (reply, card'))
    (hattached : card.attached? s ≠ some handle) (hch : card.handle? handle = some ch)
    (hch' : card'.handle? handle = some ch') {session : Session}
    (hsession : ch'.session = some session) :
    ∃ before, ch.session = some before ∧ session = (before.run (card.calls handle s)).2 := by
  obtain ⟨ch'', hch'', fate⟩ := e.fate hch
  obtain rfl : ch'' = ch' := Option.some.inj (hch''.symm.trans hch')
  generalize card.calls handle s = calls at fate ⊢
  cases fate with
  | untouched => exact ⟨session, hsession, rfl⟩
  | attached _ h => exact absurd h hattached
  | transmitted _ _ t => exact t.session_eq hsession
  | closed | disconnected => cases hsession

/-- Where a session comes from that the step does not bring the keys for. -/
theorem Effect.session_eq (e : Effect card s sent (reply, card'))
    (hattached : card.attached? s ≠ some handle) (hch' : card'.handle? handle = some ch')
    {session : Session} (hsession : ch'.session = some session) :
    (∃ ch before, card.handle? handle = some ch ∧ ch.session = some before ∧
      session = (before.run (card.calls handle s)).2) ∨
    (card.handle? handle = none ∧ card.settings.securesLogicalChannels = true ∧
      card.keys = some session.keys ∧ session = .start session.keys) := by
  cases hch : card.handle? handle with
  | none =>
    obtain ⟨-, -, n, -, rfl⟩ := e.opened_handle hch hch'
    exact .inr ⟨rfl, session_newChannel hsession⟩
  | some ch =>
    obtain ⟨before, hbefore, hafter⟩ := e.session_of_kept hattached hch hch' hsession
    exact .inl ⟨ch, before, rfl, hbefore, hafter⟩

theorem Effect.session_of_attached (e : Effect card s sent (reply, card'))
    (hattached : card.attached? s = some handle) (hch' : card'.handle? handle = some ch')
    {session : Session} (hsession : ch'.session = some session) :
    session = .start session.keys := by
  cases hch : card.handle? handle with
  | none =>
    obtain ⟨rfl, -⟩ := e.opened_handle hch hch'
    cases hattached
  | some ch =>
    obtain ⟨ch'', hch'', fate⟩ := e.fate hch
    obtain rfl : ch'' = ch' := Option.some.inj (hch''.symm.trans hch')
    generalize card.calls handle s = calls at fate
    cases fate with
    | untouched h => exact absurd hattached h
    | attached keys =>
      cases hsession
      rfl
    | transmitted h =>
      rw [h] at hattached
      cases hattached
    | closed | disconnected => cases hsession

end Card

end SmartCard
