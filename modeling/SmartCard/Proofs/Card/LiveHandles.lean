import Mathlib.Data.List.Induction
import SmartCard.Proofs.Card.Closing
import SmartCard.Proofs.Card.Reach
import SmartCard.Transport.Script

/-!
# The channels of live handles

The card gives a new channel its number, and nothing checks that the number is free. So whether live
handles have channels of their own is up to the card: they do at every point of a run exactly if it
never gives out a number that is in use (`live_handles`). While they do, what a handle sends is for
no other handle's channel.
-/

namespace SmartCard

/-! ## What a handle sends -/

namespace Channel

variable {σ : Type} [Transport σ] {ch ch' : Channel} {now : UInt64} {device after : σ}
  {c : Command} {wire : Bytes} {result : Except CardError Response}

/-- Commands with a free class are sent to the channel of the handle: always in the clear, and on
channels 1 to 3 in a session too. -/
theorem Transmission.ofClass_head? (logical : ch.number.isBasic = false)
    (hclass : ch.number.FreeIn c.cla) (hreach : ch.session = none ∨ ch.number.number.val < 4)
    (t : ch.Transmission now device c (some wire) (result, ch', after)) :
    wire.head?.map LogicalChannel.ofClass = some ch.number := by
  have haddress := @address_of_logical ch c logical
  cases t with
  | failed _ _ encoded | answered _ _ encoded =>
    obtain ⟨-, rfl⟩ := Command.encode_eq_ok_iff.mp encoded
    rw [haddress]
    exact congrArg some (LogicalChannel.ofClass_addressClass_of_freeIn hclass)
  | securedFailed _ secured | securedAnswered _ secured =>
    have hlow : ch.number.number.val < 4 := by simpa [secured] using hreach
    rw [haddress]
    exact congrArg some (LogicalChannel.ofClass_marked hlow hclass)

theorem Transmission.closed_of_closed {sent : Option Bytes} (h : ch.closed = true)
    (t : ch.Transmission now device c sent (result, ch', after)) : ch'.closed = true := by
  cases t with
  | closed => rfl
  | absent | unencodable | failed | answered => exact h
  | refused | securedFailed | securedAnswered => exact h

end Channel

namespace Card

/-! ## Live handles -/

section

variable {σ : Type}

/-- A handle on a logical channel, not closed. -/
structure Live (card : Card σ) (handle : Nat) (ch : Channel) : Prop where
  positive : handle ≠ 0
  handle? : card.handle? handle = some ch
  isOpen : ch.isClosed card.epoch = false

/-- No two live handles have channels of one number. -/
def Distinct (card : Card σ) : Prop :=
  ∀ i j ch ch', card.Live i ch → card.Live j ch' → ch.number = ch'.number → i = j

/-- The step opens a channel, and the card gives it the number of a live handle. -/
def Reassigns [Transport σ] (card : Card σ) : Step σ → Prop
  | .openLogical => ∃ state i ch, (card.step .openLogical).1 = .ok (.channel state) ∧
      card.Live i ch ∧ ch.number = state.number
  | _ => False

end

variable {σ : Type} [Transport σ] {card card' : Card σ} {s : Step σ} {sent : Option Bytes}
  {reply : Except CardError Reply} {handle : Nat} {ch : Channel}

/-- A step keeps the number and the epoch of a handle on a logical channel, and does not open what
is closed. -/
theorem Effect.kept (e : Effect card s sent (reply, card')) (hpositive : handle ≠ 0)
    (hch : card.handle? handle = some ch) :
    ∃ ch', card'.handle? handle = some ch' ∧ ch'.number = ch.number ∧ ch'.epoch = ch.epoch ∧
      (ch.closed = true → ch'.closed = true) := by
  obtain ⟨ch', hch', fate⟩ := e.fate hch
  refine ⟨ch', hch', ?_⟩
  generalize card.calls handle s = calls at fate
  cases fate with
  | untouched => exact ⟨rfl, rfl, id⟩
  | attached keys => exact ⟨rfl, rfl, id⟩
  | transmitted _ _ t =>
    obtain ⟨hnumber, hepoch⟩ := t.number_epoch
    exact ⟨hnumber, hepoch, t.closed_of_closed⟩
  | closed t =>
    obtain ⟨hnumber, hepoch⟩ := t.number_epoch
    exact ⟨hnumber, hepoch, fun _ => rfl⟩
  | disconnected hzero => exact absurd hzero hpositive

/-- Every handle but the first is on a logical channel. -/
def LogicalNumbers (card : Card σ) : Prop :=
  ∀ i ch, i ≠ 0 → card.handle? i = some ch → ch.number.isBasic = false

theorem LogicalNumbers.effect (h : card.LogicalNumbers) (e : Effect card s sent (reply, card')) :
    card'.LogicalNumbers := by
  intro i ch' hi hch'
  cases hch : card.handle? i with
  | none =>
    obtain ⟨-, -, n, hn, rfl⟩ := e.opened_handle hch hch'
    rw [(card.newChannel_fields n).1, hn]
  | some ch =>
    obtain ⟨ch'', hch'', hnumber, -⟩ := e.kept hi hch
    obtain rfl : ch'' = ch' := Option.some.inj (hch''.symm.trans hch')
    rw [hnumber, h i ch hi hch]

theorem LogicalNumbers.run (device : σ) (settings : CardSettings) (steps : List (Step σ)) :
    ((fresh device settings).run steps).LogicalNumbers := by
  refine run_induction LogicalNumbers.effect ?_ steps
  intro i ch hi hch
  cases i with
  | zero => exact absurd rfl hi
  | succ k => cases hch

/-! ## Opening -/

/-- The reply to a step that opens a handle shows its channel. -/
theorem Effect.reply_of_opened (e : Effect card s sent (reply, card'))
    (hnone : card.handle? handle = none) (hch : card'.handle? handle = some ch) :
    reply = .ok (.channel (ch.state card.epoch)) := by
  obtain ⟨rfl, rfl, -⟩ := e.opened_handle hnone hch
  cases e with
  | unreachable =>
    rw [hnone] at hch
    cases hch
  | notOpened h =>
    rw [handle?_keep_of_none h hnone] at hch
    cases hch
  | @opened _ _ _ _ _ n =>
    have hnew : (card.logical ++ [card.newChannel n])[card.logical.length]? = some ch := hch
    rw [List.getElem?_concat_length] at hnew
    cases hnew
    rfl

omit [Transport σ] in
theorem live_of_handle? (hnumbers : card.LogicalNumbers) (hpositive : handle ≠ 0)
    (hch : card.handle? handle = some ch) (hopen : ch.closed = false)
    (hepoch : ch.epoch = card.epoch) : card.Live handle ch := by
  refine ⟨hpositive, hch, ?_⟩
  rw [← Bool.not_eq_true, Channel.isClosed_iff (hnumbers handle ch hpositive hch)]
  simp [hopen, hepoch]

/-- A number that is given out twice is under two live handles afterwards. -/
theorem not_distinct_of_reassigns (hnumbers : card.LogicalNumbers) (h : card.Reassigns s) :
    ¬ (card.step s).2.Distinct := by
  obtain ⟨sent, e⟩ := card.exists_effect s
  have hnumbers' := hnumbers.effect e
  cases s with
  | establish | establishOn | openBasic | transmit | transmitBytes | close => exact h.elim
  | limits | disconnect | device => exact h.elim
  | openLogical =>
    obtain ⟨state, i, ch, hreply, hlive, hnumber⟩ := h
    rw [hreply] at e
    generalize (card.step .openLogical).2 = card' at e hnumbers'
    cases e with
    | @opened _ ch' _ _ after n =>
      intro hdistinct
      obtain ⟨hnumber', hepoch, hopen⟩ := card.newChannel_fields n
      have hnew : (card.logical ++ [card.newChannel n])[card.logical.length]? =
          some (card.newChannel n) := List.getElem?_concat_length
      have hold : (card.keep 0 ch' after).handle? i = some ch :=
        (handle?_keep_of_ne hlive.positive.symm).trans hlive.handle?
      have heq := hdistinct i (card.logical.length + 1) ch (card.newChannel n)
        ⟨hlive.positive, handle?_append hold _, hlive.isOpen⟩
        (live_of_handle? hnumbers' (Nat.succ_ne_zero _) hnew hopen hepoch) hnumber
      have hbound := hlive.handle?
      rw [heq] at hbound
      exact absurd hbound (by simp [handle?])

/-! ## Numbers within an epoch -/

/-- A handle that was opened in the epoch and not asked to close since. -/
structure OpenIn (card : Card σ) (epoch : UInt64) (handle : Nat) (ch : Channel) : Prop where
  positive : handle ≠ 0
  handle? : card.handle? handle = some ch
  isOpen : ch.closed = false
  epoch : ch.epoch = epoch

/-- Within each epoch the open handles have channels of their own. With the epoch left general this
holds on through all disconnects. -/
def Apart (card : Card σ) : Prop :=
  ∀ epoch i j ch ch', card.OpenIn epoch i ch → card.OpenIn epoch j ch' →
    ch.number = ch'.number → i = j

omit [Transport σ] in
theorem Live.openIn (h : card.Live handle ch) (hnumbers : card.LogicalNumbers) :
    card.OpenIn card.epoch handle ch := by
  have hopen := h.isOpen
  rw [← Bool.not_eq_true, Channel.isClosed_iff (hnumbers handle ch h.positive h.handle?)] at hopen
  simp only [not_or, Bool.not_eq_true, not_not] at hopen
  exact ⟨h.positive, h.handle?, hopen.1, hopen.2.symm⟩

omit [Transport σ] in
theorem Apart.distinct (h : card.Apart) (hnumbers : card.LogicalNumbers) : card.Distinct :=
  fun i j ch ch' hi hj => h card.epoch i j ch ch' (hi.openIn hnumbers) (hj.openIn hnumbers)

/-- Where an open handle comes from. -/
theorem OpenIn.before {epoch : UInt64} (e : Effect card s sent (reply, card'))
    (h : card'.OpenIn epoch handle ch) :
    (∃ ch₀, card.OpenIn epoch handle ch₀ ∧ ch₀.number = ch.number) ∨
      (card.handle? handle = none ∧ epoch = card.epoch) := by
  cases hch : card.handle? handle with
  | none =>
    obtain ⟨-, -, n, -, rfl⟩ := e.opened_handle hch h.handle?
    exact .inr ⟨rfl, h.epoch.symm.trans (card.newChannel_fields n).2.1⟩
  | some ch₀ =>
    obtain ⟨ch₁, hch₁, hnumber, hepoch, hclosed⟩ := e.kept h.positive hch
    obtain rfl : ch₁ = ch := Option.some.inj (hch₁.symm.trans h.handle?)
    have hopen : ch₀.closed = false := by
      by_contra hnot
      have := hclosed (by simpa using hnot)
      rw [h.isOpen] at this
      cases this
    exact .inl ⟨ch₀, ⟨h.positive, hch, hopen, hepoch.symm.trans h.epoch⟩, hnumber.symm⟩

theorem Reassigns.of_opened {i j : Nat} {ch ch' : Channel} (hnumbers : card.LogicalNumbers)
    (hold : card.OpenIn card.epoch i ch) (hnone : card.handle? j = none)
    (hnew : (card.step s).2.handle? j = some ch') (hnumber : ch.number = ch'.number) :
    card.Reassigns s := by
  obtain ⟨sent, e⟩ := card.exists_effect s
  have hreply := e.reply_of_opened hnone hnew
  have hlive := live_of_handle? hnumbers hold.positive hold.handle? hold.isOpen hold.epoch
  obtain ⟨rfl, -, -⟩ := e.opened_handle hnone hnew
  exact ⟨_, i, ch, hreply, hlive, hnumber⟩

theorem Apart.step (h : card.Apart) (hnumbers : card.LogicalNumbers) (hnot : ¬ card.Reassigns s) :
    (card.step s).2.Apart := by
  obtain ⟨sent, e⟩ := card.exists_effect s
  intro epoch i j ch ch' hi hj hnumber
  rcases hi.before e with ⟨ch₀, hi₀, hnumber₀⟩ | ⟨hnone, rfl⟩ <;>
    rcases hj.before e with ⟨ch₁, hj₁, hnumber₁⟩ | ⟨hnone', hepoch⟩
  · exact h epoch i j ch₀ ch₁ hi₀ hj₁ (hnumber₀.trans (hnumber.trans hnumber₁.symm))
  · rw [hepoch] at hi₀
    exact absurd (.of_opened hnumbers hi₀ hnone' hj.handle? (hnumber₀.trans hnumber)) hnot
  · exact absurd (.of_opened hnumbers hj₁ hnone hi.handle? (hnumber₁.trans hnumber.symm)) hnot
  · obtain ⟨-, hlast, -⟩ := e.opened_handle hnone hi.handle?
    obtain ⟨-, hlast', -⟩ := e.opened_handle hnone' hj.handle?
    rw [hlast, hlast']

/-- The induction is on the steps so far, the last one first. -/
theorem Apart.run (device : σ) (settings : CardSettings) (steps : List (Step σ))
    (h : ∀ before s, before ++ [s] <+: steps →
      ¬ ((fresh device settings).run before).Reassigns s) :
    ∀ before, before <+: steps → ((fresh device settings).run before).Apart := by
  intro before
  induction before using List.reverseRecOn with
  | nil =>
    intro _ epoch i j ch ch' hi
    obtain ⟨k, rfl⟩ := Nat.exists_eq_succ_of_ne_zero hi.positive
    cases hi.handle?
  | append_singleton before s ih =>
    intro hbefore
    have hapart := ih ((List.prefix_append before [s]).trans hbefore)
    rw [run_append]
    exact hapart.step (LogicalNumbers.run device settings before) (h before s hbefore)

/-! ## Whose channel is reached -/

section

variable {σ : Type} [Transport σ] {card : Card (Recorder σ)} {handle : Nat} {ch : Channel}

/-- All that the step sends is for the channel of the handle, and for no other live handle's. -/
def KeepsTo (card : Card (Recorder σ)) (s : Step (Recorder σ)) (handle : Nat) (ch : Channel) :
    Prop :=
  ∃ wires : List Bytes, (card.step s).2.device.sent = card.device.sent ++ wires ∧
    ∀ wire ∈ wires, wire.head?.map LogicalChannel.ofClass = some ch.number ∧
      ∀ i other, card.Live i other →
        wire.head?.map LogicalChannel.ofClass = some other.number → i = handle

theorem Distinct.keepsTo (h : card.Distinct) (hlive : card.Live handle ch)
    (hnumbers : card.LogicalNumbers) (hreach : ch.session = none ∨ ch.number.number.val < 4)
    {s : Step (Recorder σ)} {c : Command} (request : s.request = some (handle, c))
    (hclass : ch.number.FreeIn c.cla) : card.KeepsTo s handle ch := by
  obtain ⟨sent, e⟩ := card.exists_effect s
  refine ⟨sent.toList, sent_of_effect e request, fun wire hwire => ?_⟩
  obtain rfl : sent = some wire := Option.mem_toList.mp hwire
  obtain hnone | ⟨now, result, ch', after, t⟩ := e.transmission request hlive.handle?
  · cases hnone
  · have hhead := t.ofClass_head? (hnumbers handle ch hlive.positive hlive.handle?) hclass hreach
    refine ⟨hhead, fun i other hother heq => ?_⟩
    have hnumber : ch.number = other.number := Option.some.inj (hhead.symm.trans heq)
    exact (h handle i ch other hlive hother hnumber).symm

/-- **Channels of live handles.** No handle on a logical channel has the number of the basic one.
Live handles have channels of their own at every point of a run exactly if the card never gives out
the number of a handle that is live. While they have, what a live handle sends is for its own
channel and no other live handle's: its request to close, and every command whose class has room for
the number, in the clear or on channels 1 to 3. -/
theorem live_handles (device : Recorder σ) (settings : CardSettings)
    (steps : List (Step (Recorder σ))) :
    let start := fresh device settings
    let card := start.run steps
    (∀ i ch, i ≠ 0 → card.handle? i = some ch → ch.number ≠ .basic) ∧
    ((∀ before, before <+: steps → (start.run before).Distinct) ↔
      ∀ before s, before ++ [s] <+: steps → ¬ (start.run before).Reassigns s) ∧
    (card.Distinct → ∀ i ch, card.Live i ch → ch.session = none ∨ ch.number.number.val < 4 →
      card.KeepsTo (.close i) i ch ∧
      ∀ s c, s.request = some (i, c) → ch.number.FreeIn c.cla → card.KeepsTo s i ch) := by
  intro start card
  have hnumbers : card.LogicalNumbers := LogicalNumbers.run device settings steps
  refine ⟨fun i ch hi hch => ?_,
    ⟨fun h before s hbefore hreassigns => ?_, fun h before hbefore => ?_⟩,
    fun h i ch hlive hreach => ⟨?_, fun s c => h.keepsTo hlive hnumbers hreach⟩⟩
  · exact of_decide_eq_false (hnumbers i ch hi hch)
  · have hnot := not_distinct_of_reassigns (LogicalNumbers.run device settings before) hreassigns
    have hdistinct := h _ hbefore
    rw [run_append] at hdistinct
    exact hnot hdistinct
  · exact (Apart.run device settings steps h before hbefore).distinct
      (LogicalNumbers.run device settings before)
  · exact h.keepsTo hlive hnumbers hreach rfl (ch.number.freeIn_of_and_eq_zero (by decide))

end

/-- A device that opens channels of these numbers. -/
def opens (numbers : List UInt8) : Recorder ScriptedDevice where
  device := { script := numbers.map fun n => ⟨.ok [n, 0x90, 0x00], false⟩ }

/-- Two handles on channels 1 and 5. -/
theorem live_handles_two :
    let card := (fresh (opens [1, 5]) {}).run [.openLogical, .openLogical]
    ∃ ch, card.Live 1 ch ∧ card.KeepsTo (.close 1) 1 ch := by
  intro card
  let first : Channel := { number := ⟨1⟩, epoch := 0 }
  let second : Channel := { number := ⟨5⟩, epoch := 0 }
  have hlogical : card.logical = [first, second] := rfl
  have hcases (i : Nat) (ch : Channel) (h : card.Live i ch) :
      (i = 1 ∧ ch = first) ∨ (i = 2 ∧ ch = second) := by
    obtain ⟨k, rfl⟩ := Nat.exists_eq_succ_of_ne_zero h.positive
    have hk : [first, second][k]? = some ch := hlogical ▸ h.handle?
    match k, hk with
    | 0, hk => exact .inl ⟨rfl, (Option.some.inj hk).symm⟩
    | 1, hk => exact .inr ⟨rfl, (Option.some.inj hk).symm⟩
  have hdistinct : card.Distinct := by
    intro i j ch ch' hi hj hnumber
    rcases hcases i ch hi with ⟨rfl, rfl⟩ | ⟨rfl, rfl⟩ <;>
      rcases hcases j ch' hj with ⟨rfl, rfl⟩ | ⟨rfl, rfl⟩
    · rfl
    · exact absurd hnumber (by decide)
    · exact absurd hnumber (by decide)
    · rfl
  have hlive : card.Live 1 first := ⟨by decide, rfl, rfl⟩
  exact ⟨first, hlive, ((live_handles (opens [1, 5]) {} [.openLogical, .openLogical]).2.2 hdistinct 1
    first hlive (.inl rfl)).1⟩

/-- A number that is given out twice: the request of one handle to close is for the channel of the
other, which stays open. And on channel 1 a class that has the bit of the higher channels set goes
to channel 5. -/
theorem not_distinct_twice :
    let twice := (fresh (opens [1, 1]) {}).run [.openLogical, .openLogical]
    let apart := (fresh (opens [1, 5]) {}).run [.openLogical, .openLogical]
    (∃ ch ch', twice.Live 1 ch ∧ twice.Live 2 ch' ∧ ch.number = ch'.number ∧
      (twice.step (.close 1)).2.device.sent =
        twice.device.sent ++ [[0x01, 0x70, 0x80, 0x00]] ∧
      LogicalChannel.ofClass 0x01 = ch'.number ∧ (twice.step (.close 1)).2.Live 2 ch') ∧
    ∃ ch ch', apart.Live 1 ch ∧ apart.Live 2 ch' ∧ ch.number ≠ ch'.number ∧
      (apart.step (.transmit 1 ⟨0x40, 0xB0, 0x00, 0x00, none, none⟩)).2.device.sent =
        apart.device.sent ++ [[0x41, 0xB0, 0x00, 0x00]] ∧
      LogicalChannel.ofClass 0x41 = ch'.number := by
  let one : Channel := { number := ⟨1⟩, epoch := 0 }
  let five : Channel := { number := ⟨5⟩, epoch := 0 }
  intro twice apart
  refine ⟨⟨one, one, ⟨by decide, rfl, rfl⟩, ⟨by decide, rfl, rfl⟩, rfl, by rfl, by decide,
      ⟨by decide, by rfl, by rfl⟩⟩,
    one, five, ⟨by decide, rfl, rfl⟩, ⟨by decide, rfl, rfl⟩, by decide, by rfl, by decide⟩

end Card

end SmartCard
