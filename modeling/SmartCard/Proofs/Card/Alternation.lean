import SmartCard.Proofs.Card.Calls

/-!
# Wraps and unwraps take turns until an exchange fails

Each step that reaches a session makes a wrap on it, and the unwrap of the answer if there is one.
So wraps and unwraps alternate for as long as there always is one: `alternates_iff`. A wrap that
stays alone, because it is refused or because its transmission fails, puts the counter out of step:
`not_alternates_after_refusal`.
-/

namespace SmartCard

/-! ## Exchanges -/

/-- The calls that a step makes on one session. -/
inductive ExchangeCalls : List SessionCall → Prop
  | none : ExchangeCalls []
  | unanswered (c : Command) : ExchangeCalls [.encrypt c]
  | answered (c : Command) (answer : Bytes) : ExchangeCalls [.encrypt c, .decrypt answer]

theorem ExchangeCalls.length_le {calls : List SessionCall} (h : ExchangeCalls calls) :
    calls.length ≤ 2 := by
  cases h <;> simp

namespace Session

variable {s : Session} {past : List (List SessionCall)}

theorem alternates_encrypt_iff {c : Command} {rest : List SessionCall} :
    s.Alternates (.encrypt c :: rest) ↔ s.counter.toNat % 2 = 0 ∧ s.step.Alternates rest := by
  have hstep : s.step.counter.toNat % 2 = (s.counter.toNat + 1) % 2 :=
    toNat_next_mod_two s.counter
  have hwrap : (SessionCall.encrypt c).isWrap = true := rfl
  rw [Alternates, call_snd, hstep, iff_true_left hwrap]
  exact and_congr_left' (by omega)

theorem alternates_decrypt_iff {answer : Bytes} {rest : List SessionCall} :
    s.Alternates (.decrypt answer :: rest) ↔ s.counter.toNat % 2 = 1 ∧ s.step.Alternates rest := by
  have hstep : s.step.counter.toNat % 2 = (s.counter.toNat + 1) % 2 :=
    toNat_next_mod_two s.counter
  have hunwrap : ¬ (SessionCall.decrypt answer).isWrap = true := Bool.false_ne_true
  rw [Alternates, call_snd, hstep, iff_false_left hunwrap]
  exact and_congr_left' (by omega)

/-- Once a wrap has stayed alone, the next wrap is out of turn. -/
theorem not_alternates_of_odd (hpast : ∀ calls ∈ past, ExchangeCalls calls)
    (hodd : s.counter.toNat % 2 = 1) :
    ¬ (s.Alternates past.flatten ∧ (s.run past.flatten).2.counter.toNat % 2 = 0) := by
  induction past with
  | nil =>
    rintro ⟨-, heven⟩
    have heven : s.counter.toNat % 2 = 0 := heven
    omega
  | cons calls rest ih =>
    have hrest := ih fun calls' h => hpast calls' (List.mem_cons_of_mem calls h)
    rw [List.flatten_cons]
    cases hpast calls List.mem_cons_self with
    | none => exact hrest
    | unanswered | answered =>
      rintro ⟨halternates, -⟩
      have := (alternates_encrypt_iff.mp halternates).1
      omega

/-- From an even counter on, wraps and unwraps alternate, and the next wrap is in turn, exactly if
no wrap stays alone. -/
theorem alternates_flatten_iff (hpast : ∀ calls ∈ past, ExchangeCalls calls)
    (heven : s.counter.toNat % 2 = 0) :
    (s.Alternates past.flatten ∧ (s.run past.flatten).2.counter.toNat % 2 = 0) ↔
      ∀ c, [.encrypt c] ∉ past := by
  induction past generalizing s with
  | nil => simpa [Alternates, run] using heven
  | cons calls rest ih =>
    have hrest : ∀ calls' ∈ rest, ExchangeCalls calls' :=
      fun calls' h => hpast calls' (List.mem_cons_of_mem calls h)
    have hodd : s.step.counter.toNat % 2 = 1 := by
      have : s.step.counter.toNat % 2 = (s.counter.toNat + 1) % 2 := toNat_next_mod_two s.counter
      omega
    rw [List.flatten_cons]
    cases hpast calls List.mem_cons_self with
    | none => simpa using ih hrest heven
    | unanswered c =>
      refine iff_of_false ?_ fun h => h c List.mem_cons_self
      rw [List.cons_append, List.nil_append, alternates_encrypt_iff, run_cons_snd, and_assoc]
      exact fun h => not_alternates_of_odd hrest hodd h.2
    | answered c answer =>
      have heven' : s.step.step.counter.toNat % 2 = 0 := by
        have : s.step.step.counter.toNat % 2 = (s.step.counter.toNat + 1) % 2 :=
          toNat_next_mod_two s.step.counter
        omega
      simp only [List.cons_append, List.nil_append, alternates_encrypt_iff,
        alternates_decrypt_iff, run_cons_snd, heven, hodd, true_and, ih hrest heven']
      simp

end Session

variable {σ : Type} [Transport σ]

theorem Channel.exchangeCalls (ch : Channel) (now : UInt64) (device : σ) (c : Command) :
    ExchangeCalls (ch.calls now device c) := by
  by_cases ready : ch.Ready now device
  · cases hsession : ch.session with
    | none =>
      unfold calls
      rw [hsession, ite_self]
      exact .none
    | some s =>
      rw [calls_of_ready ready hsession]
      cases s.answer? device (ch.address c) with
      | none => exact .unanswered _
      | some answer => exact .answered _ answer
  · rw [calls_of_not_ready ready]
    exact .none

namespace Card

/-! ## Histories -/

/-- The calls that the session of a handle has taken, step by step, with those of one more step. A
session that the step starts has taken none. -/
def record (card : Card σ) (handle : Nat) (past : List (List SessionCall)) (s : Step σ) :
    List (List SessionCall) :=
  if card.attached? s = some handle then [] else past ++ [card.calls handle s]

/-- The calls that the session of a handle has taken at the end of a run, step by step. It has taken
`past` before. -/
def history (card : Card σ) (handle : Nat) (past : List (List SessionCall)) :
    List (Step σ) → List (List SessionCall)
  | [] => past
  | s :: rest => (card.step s).2.history handle (card.record handle past s) rest

/-- The calls in `past` are all that the session of the handle has taken. -/
structure Explained (card : Card σ) (handle : Nat) (past : List (List SessionCall)) : Prop where
  exchanges : ∀ calls ∈ past, ExchangeCalls calls
  session : ∀ {ch s}, card.handle? handle = some ch → ch.session = some s →
    s = ((Session.start s.keys).run past.flatten).2
  idle : card.handle? handle = none → past.flatten = []

variable {card card' : Card σ} {handle : Nat} {ch : Channel} {past : List (List SessionCall)}

theorem exchangeCalls (card : Card σ) (handle : Nat) (s : Step σ) :
    ExchangeCalls (card.calls handle s) := by
  unfold calls
  split
  · split
    · exact Channel.exchangeCalls ..
    · exact .none
  · exact .none

omit [Transport σ] in
theorem explained_fresh (device : σ) (settings : CardSettings) (handle : Nat) :
    Explained (fresh device settings) handle [] where
  exchanges := by simp
  session := by
    intro ch s hch hsession
    cases handle with
    | zero =>
      cases hch
      cases hsession
    | succ k => cases hch
  idle := fun _ => rfl

theorem record_of_attached {s : Step σ} (h : card.attached? s = some handle) :
    card.record handle past s = [] := if_pos h

theorem flatten_record {s : Step σ} (h : card.attached? s ≠ some handle) :
    (card.record handle past s).flatten = past.flatten ++ card.calls handle s := by
  unfold record
  rw [if_neg h, List.flatten_append, List.flatten_singleton]

namespace Explained

theorem effect (h : Explained card handle past) {s : Step σ} {sent : Option Bytes}
    {reply : Except CardError Reply} (e : Effect card s sent (reply, card')) :
    Explained card' handle (card.record handle past s) where
  exchanges := by
    intro calls hcalls
    unfold record at hcalls
    split at hcalls
    · cases hcalls
    · rcases List.mem_append.mp hcalls with hpast | hlast
      · exact h.exchanges calls hpast
      · obtain rfl := List.mem_singleton.mp hlast
        exact card.exchangeCalls handle s
  session := by
    intro ch' session hch' hsession
    by_cases hattached : card.attached? s = some handle
    · rw [record_of_attached hattached]
      exact e.session_of_attached hattached hch' hsession
    · rw [flatten_record hattached]
      rcases e.session_eq hattached hch' hsession with
        ⟨ch, before, hch, hbefore, hafter⟩ | ⟨hnone, -, -, hnew⟩
      · have hkeys : session.keys = before.keys := by rw [hafter, Session.run_snd]
        rw [Session.run_append_snd, hkeys, ← h.session hch hbefore]
        exact hafter
      · rw [h.idle hnone, calls_of_no_handle hnone]
        exact hnew
  idle := by
    intro hnone
    have hold : card.handle? handle = none := by
      cases hold : card.handle? handle with
      | none => rfl
      | some ch =>
        obtain ⟨ch', hch', -⟩ := e.fate hold
        rw [hnone] at hch'
        cases hch'
    by_cases hattached : card.attached? s = some handle
    · rw [record_of_attached hattached]
      rfl
    · rw [flatten_record hattached, h.idle hold, calls_of_no_handle hold]
      rfl

theorem run (h : Explained card handle past) (steps : List (Step σ)) :
    Explained (card.run steps) handle (card.history handle past steps) := by
  induction steps generalizing card past with
  | nil => exact h
  | cons s rest ih =>
    obtain ⟨sent, e⟩ := card.exists_effect s
    exact ih (h.effect e)

end Explained

/-- **Alternation.** A session that is attached in a run has taken the calls of its history since it
was new, and nothing else has moved its counter. A transmission that reaches it wraps the command
and unwraps the answer, if there is one. Wraps and unwraps have taken turns, and the next wrap is in
turn, exactly if every wrap so far was accepted and answered. -/
theorem alternates_iff (device : σ) (settings : CardSettings) (steps : List (Step σ))
    {handle : Nat} {ch : Channel} {session : Session}
    (hch : ((fresh device settings).run steps).handle? handle = some ch)
    (hsession : ch.session = some session) :
    let card := (fresh device settings).run steps
    let past := (fresh device settings).history handle [] steps
    let first := Session.start session.keys
    session = (first.run past.flatten).2 ∧
      (∀ calls ∈ past, ExchangeCalls calls) ∧
      (∀ s c, card.request? s = some (handle, c) → ch.Ready card.epoch card.device →
        card.calls handle s = .encrypt (ch.address c) ::
          ((session.answer? card.device (ch.address c)).map .decrypt).toList) ∧
      (first.Alternates past.flatten ∧ session.counter.toNat % 2 = 0 ↔
        ∀ c, [.encrypt c] ∉ past) := by
  intro card past first
  have h : Explained card handle past := (explained_fresh device settings handle).run steps
  have hrun : session = (first.run past.flatten).2 := h.session hch hsession
  refine ⟨hrun, h.exchanges, ?_, ?_⟩
  · intro s c request ready
    rw [calls_of_request request hch, Channel.calls_of_ready ready hsession]
  · rw [hrun]
    exact Session.alternates_flatten_iff h.exchanges rfl

/-- One exchange, whose answer is not accepted, leaves the session in turn. -/
theorem alternates_iff_rejected :
    let keys : SessionKeys := ⟨Counter.block 0, Counter.block 1⟩
    let start := fresh (ScriptedDevice.mk [⟨.ok [0x90, 0x00], false⟩] true none) {}
    let steps := [.establish keys, .transmit 0 manageOpen]
    let past := start.history 0 [] steps
    ((start.run steps).handle? 0).bind Channel.session = some ⟨keys, 2⟩ ∧
      past = [[.encrypt manageOpen, .decrypt [0x90, 0x00]]] ∧
      (Session.start keys).Alternates past.flatten := by
  intro keys start steps past
  let card := start.establish keys
  have ready : card.basic.Ready card.epoch card.device := ⟨rfl, rfl⟩
  have hopen : (card.basic.address manageOpen).Protectable := by decide
  have hsession : ((start.run steps).handle? 0).bind Channel.session = some ⟨keys, 2⟩ := by
    show ((card.step (.transmit 0 manageOpen)).2.handle? 0).bind Channel.session = _
    rw [step_transmit_of_secured rfl ready rfl, Exchange.secured_of_protectable hopen]
    rfl
  have hpast : past = [[.encrypt manageOpen, .decrypt [0x90, 0x00]]] := by
    show [card.calls 0 (.transmit 0 manageOpen)] = _
    rw [calls_of_request rfl rfl, Channel.calls_of_ready ready rfl, Session.answer?, if_pos hopen]
    rfl
  obtain ⟨ch, hch, hsome⟩ := Option.bind_eq_some_iff.mp hsession
  obtain ⟨-, -, -, halternates⟩ := alternates_iff start.device {} steps hch hsome
  have hanswered : ∀ c, [.encrypt c] ∉ past := by
    rw [hpast]
    simp
  exact ⟨hsession, hpast, (halternates.mpr hanswered).1⟩

/-- A command that the session refuses is followed by the next wrap, at an even value. -/
theorem not_alternates_after_refusal :
    let keys : SessionKeys := ⟨Counter.block 0, Counter.block 1⟩
    let refused : Command := ⟨0x0C, 0xB0, 0x00, 0x00, none, none⟩
    let read : Command := ⟨0x00, 0xB0, 0x00, 0x00, none, none⟩
    let start := fresh (ScriptedDevice.mk [] true none) {}
    let steps := [.establish keys, .transmit 0 refused]
    let calls := (start.history 0 [] steps).flatten ++ (start.run steps).calls 0 (.transmit 0 read)
    (start.run steps).basic.session = some ⟨keys, 1⟩ ∧
      calls = [.encrypt refused, .encrypt read] ∧ ¬ (Session.start keys).Alternates calls := by
  intro keys refused read start steps calls
  let card := start.establish keys
  let left : Channel := { card.basic with session := some ⟨keys, 1⟩ }
  have ready : card.basic.Ready card.epoch card.device := ⟨rfl, rfl⟩
  have hnot : ¬ (card.basic.address refused).Protectable := by decide
  obtain ⟨e, -, hrefused⟩ :=
    @Exchange.secured_of_not_protectable _ _ (.start keys) card.device _ hnot
  have hcard : start.run steps = { card with basic := left } := by
    show (card.step (.transmit 0 refused)).2 = _
    rw [step_transmit_of_secured rfl ready rfl, hrefused]
    rfl
  have hpast : (start.history 0 [] steps).flatten = [.encrypt refused] := by
    show card.calls 0 (.transmit 0 refused) ++ [] = _
    rw [calls_of_request rfl rfl, Channel.calls_of_ready ready rfl, Session.answer?, if_neg hnot]
    rfl
  have hcalls : calls = [.encrypt refused, .encrypt read] := by
    have hread : (left.address read).Protectable := by decide
    show (start.history 0 [] steps).flatten ++ (start.run steps).calls 0 (.transmit 0 read) = _
    rw [hpast, hcard, calls_of_request rfl rfl]
    show [.encrypt refused] ++ left.calls 0 card.device read = _
    rw [Channel.calls_of_ready ⟨rfl, rfl⟩ rfl, Session.answer?, if_pos hread]
    rfl
  refine ⟨by rw [hcard], hcalls, ?_⟩
  rw [hcalls, Session.alternates_encrypt_iff, Session.alternates_encrypt_iff]
  exact fun h => absurd h.2.1 (by decide)

end Card

end SmartCard
