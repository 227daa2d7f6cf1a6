import Mathlib
import SmartCard.Proofs.Hex
import SmartCard.Proofs.Messaging.CommandForm
import SmartCard.Proofs.Messaging.SessionRun
import SmartCard.Proofs.Tool.Words

/-!
# Cutting a run and resuming it

Each call uses up one counter value, and so does each text on a command line. The keys and a counter
are then all that a session has to hand on. `Tool.lines_eq`: each line is the one that its text gets
alone; `resumption` puts the calls of a session, the texts of a command line and the printed lines
together.
-/

namespace SmartCard

/-- The options for what comes `n` messages later. -/
def SessionOptions.advance (options : SessionOptions) (n : Nat) : SessionOptions :=
  { options with counter := options.counter + BitVec.ofNat 128 n }

/-! ## Results in a row -/

section

variable {ε α : Type} {results : List (Except ε α)}

theorem mapM_id_cons (result : Except ε α) (rest : List (Except ε α)) :
    (result :: rest).mapM id = result >>= fun a => rest.mapM id >>= fun as => .ok (a :: as) := by
  rw [List.mapM_cons]
  rfl

theorem mapM_id_eq_ok_iff {as : List α} : results.mapM id = .ok as ↔ results = as.map .ok := by
  induction results generalizing as with
  | nil => cases as <;> simp [pure, Except.pure]
  | cons result rest ih =>
    rw [mapM_id_cons]
    cases result with
    | error e => cases as <;> simp [bind, Except.bind]
    | ok a =>
      cases as with
      | nil => cases rest.mapM id <;> simp [bind, Except.bind]
      | cons b bs =>
        cases hrest : rest.mapM id <;> simp [bind, Except.bind, ← ih, hrest]

/-- The first error is the one that counts. -/
theorem mapM_id_eq_error_iff {e : ε} :
    results.mapM id = .error e ↔
      ∃ i : Nat, results[i]? = some (Except.error e) ∧
        ∀ j < i, ∃ a, results[j]? = some (Except.ok a) := by
  induction results with
  | nil => simp [pure, Except.pure]
  | cons result rest ih =>
    rw [mapM_id_cons]
    constructor
    · intro h
      cases result with
      | error e' =>
        cases h
        exact ⟨0, rfl, by simp⟩
      | ok a =>
        cases hrest : rest.mapM id with
        | error e' =>
          rw [hrest] at h
          cases h
          obtain ⟨i, hi, hbefore⟩ := ih.mp hrest
          refine ⟨i + 1, hi, fun j hj => ?_⟩
          cases j with
          | zero => exact ⟨a, rfl⟩
          | succ j => exact hbefore j (by omega)
        | ok as =>
          rw [hrest] at h
          cases h
    · rintro ⟨i, hi, hbefore⟩
      cases i with
      | zero =>
        obtain rfl : result = .error e := Option.some.inj hi
        rfl
      | succ i =>
        obtain ⟨a, ha⟩ := hbefore 0 (by omega)
        obtain rfl : result = .ok a := Option.some.inj ha
        rw [ih.mpr ⟨i, hi, fun j hj => hbefore (j + 1) (by omega)⟩]
        rfl

end

/-! ## Texts within a session -/

namespace Tool

section

variable {one : Session → String → Except ToolError (String × Session)} {s : Session}
  {texts front back ls : List String} {e : ToolError}

/-- A text that gets a line uses up one counter value. -/
def Stepwise (one : Session → String → Except ToolError (String × Session)) : Prop :=
  ∀ s text line after, one s text = .ok (line, after) → after = s.step

/-- What each text gets from a session that was opened for it alone. -/
def alone (one : Session → String → Except ToolError (String × Session)) (s : Session)
    (texts : List String) : List (Except ToolError String) :=
  texts.mapIdx fun i text => (one (s.advance i) text).map Prod.fst

theorem alone_cons (text : String) (rest : List String) :
    alone one s (text :: rest) = (one s text).map Prod.fst :: alone one s.step rest := by
  unfold alone
  rw [List.mapIdx_cons, s.advance_zero]
  simp only [s.step_advance]

theorem alone_append (front back : List String) :
    alone one s (front ++ back) = alone one s front ++ alone one (s.advance front.length) back := by
  unfold alone
  rw [List.mapIdx_append]
  simp only [s.advance_advance, Nat.add_comm]

/-- The induction is on the texts, with the session in general. -/
theorem lines_eq (h : Stepwise one) : lines one s texts = (alone one s texts).mapM id := by
  induction texts generalizing s with
  | nil => rfl
  | cons text rest ih =>
    rw [alone_cons, mapM_id_cons, ← ih]
    show (one s text >>= fun r => lines one r.2 rest >>= fun ls => .ok (r.1 :: ls)) = _
    cases hone : one s text with
    | error e => rfl
    | ok r =>
      obtain ⟨line, after⟩ := r
      obtain rfl := h s text line after hone
      rfl

theorem lines_singleton (h : Stepwise one) (text : String) :
    lines one s [text] = ((one s text).map Prod.fst).map fun line => [line] := by
  rw [lines_eq h, alone_cons, mapM_id_cons]
  cases one s text <;> rfl

theorem lines_singleton_eq_ok_iff (h : Stepwise one) {text line : String} :
    lines one s [text] = .ok [line] ↔ (one s text).map Prod.fst = .ok line := by
  rw [lines_singleton h]
  cases (one s text).map Prod.fst <;> simp [Except.map]

theorem lines_singleton_eq_error_iff (h : Stepwise one) {text : String} :
    lines one s [text] = .error e ↔ (one s text).map Prod.fst = .error e := by
  rw [lines_singleton h]
  cases (one s text).map Prod.fst <;> simp [Except.map]

theorem lines_append (h : Stepwise one) :
    lines one s (front ++ back) = do
      let before ← lines one s front
      let after ← lines one (s.advance front.length) back
      return before ++ after := by
  rw [lines_eq h, lines_eq h, lines_eq h, alone_append, List.mapM_append]

theorem lines_append_eq_ok_iff (h : Stepwise one) :
    lines one s (front ++ back) = .ok ls ↔
      ∃ before after, lines one s front = .ok before ∧
        lines one (s.advance front.length) back = .ok after ∧ ls = before ++ after := by
  rw [lines_append h]
  cases lines one s front with
  | error e => simp [bind, Except.bind]
  | ok before =>
    cases lines one (s.advance front.length) back <;>
      simp [bind, Except.bind, pure, Except.pure, eq_comm]

theorem getElem?_alone (i : Nat) :
    (alone one s texts)[i]? = texts[i]?.map fun text => (one (s.advance i) text).map Prod.fst :=
  List.getElem?_mapIdx

/-- Each line is the one of its text. -/
theorem exists_one_of_lines (h : Stepwise one) (hlines : lines one s texts = .ok ls) :
    ls.length = texts.length ∧ ∀ i line, ls[i]? = some line →
      ∃ text after, texts[i]? = some text ∧ one (s.advance i) text = .ok (line, after) := by
  have halone : alone one s texts = ls.map .ok := mapM_id_eq_ok_iff.mp (lines_eq h ▸ hlines)
  refine ⟨?_, fun i line hline => ?_⟩
  · have := congrArg List.length halone
    simpa [alone] using this.symm
  · have hi := @getElem?_alone one s texts i
    rw [halone, List.getElem?_map, hline, Option.map_some] at hi
    obtain ⟨text, htext, hone⟩ := Option.map_eq_some_iff.mp hi.symm
    cases hresult : one (s.advance i) text with
    | error e =>
      rw [hresult] at hone
      cases hone
    | ok r =>
      rw [hresult] at hone
      cases hone
      exact ⟨text, r.2, htext, hresult⟩

/-- The first text that fails alone gives the error. -/
theorem lines_eq_error_iff (h : Stepwise one) :
    lines one s texts = .error e ↔ ∃ i text, texts[i]? = some text ∧
      (∀ j < i, ∀ t, texts[j]? = some t → ∃ line, lines one (s.advance j) [t] = .ok [line]) ∧
      lines one (s.advance i) [text] = .error e := by
  rw [lines_eq h, mapM_id_eq_error_iff]
  simp only [getElem?_alone, Option.map_eq_some_iff, lines_singleton_eq_ok_iff h,
    lines_singleton_eq_error_iff h]
  constructor
  · rintro ⟨i, ⟨text, htext, hfail⟩, hbefore⟩
    refine ⟨i, text, htext, fun j hj t ht => ?_, hfail⟩
    obtain ⟨line, t', ht', hline⟩ := hbefore j hj
    obtain rfl : t' = t := Option.some.inj (ht'.symm.trans ht)
    exact ⟨line, hline⟩
  · rintro ⟨i, text, htext, hbefore, hfail⟩
    refine ⟨i, ⟨text, htext, hfail⟩, fun j hj => ?_⟩
    obtain ⟨hi, -⟩ := List.getElem?_eq_some_iff.mp htext
    have ht : texts[j]? = some texts[j] := List.getElem?_eq_getElem (by omega)
    obtain ⟨line, hline⟩ := hbefore j hj _ ht
    exact ⟨line, _, ht, hline⟩

end

/-! ## The subcommands -/

/-- The subcommands that take texts in a row. -/
inductive Batch
  | protect
  | unprotect

namespace Batch

def one : Batch → Session → String → Except ToolError (String × Session)
  | protect => protectOne
  | unprotect => unprotectOne

def invocation : Batch → SessionOptions → List String → Invocation
  | protect => .protect
  | unprotect => .unprotect

def subcommand : Batch → Subcommand
  | protect => .protect
  | unprotect => .unprotect

def name : Batch → String
  | protect => "protect"
  | unprotect => "unprotect"

/-- A command line that gives the options and then the texts. -/
def words (batch : Batch) (options : SessionOptions) (texts : List String) : List String :=
  batch.name ::
    (sessionWords options.enc options.mac options.counter.toNat.repr ++ texts)

def run (batch : Batch) (options : SessionOptions) (texts : List String) :
    Except ToolError (List String) :=
  (batch.invocation options texts).run

end Batch

variable {s after : Session} {text line : String} {options : SessionOptions} {batch : Batch}

/-- What a text goes through to be protected. -/
theorem protectOne_eq_ok_iff :
    protectOne s text = .ok (line, after) ↔ ∃ c w, readCommand text = .ok c ∧
      s.encrypt c = (.ok w, s.step) ∧ printCommand w = .ok line ∧ after = s.step := by
  unfold protectOne
  cases readCommand text with
  | error e => simp [bind, Except.bind]
  | ok c =>
    by_cases hc : c.Protectable
    · have hencrypt := Session.encrypt_of_protectable (s := s) hc
      cases hprint : printCommand (s.keys.protectedForm s.counter.next c) <;>
        simp [bind, Except.bind, pure, Except.pure, Except.mapError, hencrypt, hprint, eq_comm]
    · obtain ⟨e, hencrypt⟩ := Session.encrypt_of_not_protectable (s := s) hc
      simp [bind, Except.bind, Except.mapError, hencrypt]

/-- What is printed for a text is read back as the protected command. -/
theorem exists_read_of_protectOne (h : protectOne s text = .ok (line, after)) :
    ∃ c w bytes, readCommand text = .ok c ∧ (s.encrypt c).1 = .ok w ∧
      Hex.read line = .ok bytes ∧ Command.parse bytes = .ok w := by
  obtain ⟨c, w, hread, hencrypt, hprint, -⟩ := protectOne_eq_ok_iff.mp h
  obtain ⟨hc, rfl, -⟩ := Session.encrypt_eq_ok_iff.mp hencrypt
  refine ⟨c, _, (s.keys.protectedForm s.counter.next c).encodeFields, hread,
    by rw [hencrypt], ?_, SessionKeys.parse_protectedForm hc⟩
  unfold printCommand at hprint
  rw [(SessionKeys.encodable_protectedForm hc).encode] at hprint
  cases hprint
  exact Hex.read_print _

theorem stepwise_protectOne : Stepwise protectOne := by
  intro s text line after h
  obtain ⟨-, -, -, -, -, rfl⟩ := protectOne_eq_ok_iff.mp h
  rfl

theorem stepwise_unprotectOne : Stepwise unprotectOne := by
  intro s text line after h
  have hresult : unprotectOne s text = readHex text >>= fun bytes =>
      (s.decrypt bytes).1.mapError ToolError.messaging >>= fun r => .ok (r.display, s.step) := rfl
  rw [hresult] at h
  cases hread : readHex text with
  | error e =>
    rw [hread] at h
    cases h
  | ok bytes =>
    rw [hread] at h
    cases hdecrypt : (s.decrypt bytes).1.mapError ToolError.messaging with
    | error e => simp [bind, Except.bind, hdecrypt] at h
    | ok r =>
      simp only [bind, Except.bind, hdecrypt] at h
      cases h
      rfl

theorem Batch.stepwise : ∀ batch : Batch, Stepwise batch.one
  | .protect => stepwise_protectOne
  | .unprotect => stepwise_unprotectOne

theorem openSession_advance (options : SessionOptions) (n : Nat) :
    openSession (options.advance n) = (openSession options).map (·.advance n) := by
  unfold openSession
  show (readHex options.enc >>= _) = _
  cases readHex options.enc with
  | error e => rfl
  | ok enc =>
    show (readHex options.mac >>= _) = _
    cases readHex options.mac with
    | error e => rfl
    | ok mac =>
      show ((SessionKeys.ofBytes enc mac).mapError ToolError.messaging >>= _) =
        ((SessionKeys.ofBytes enc mac).mapError ToolError.messaging >>= _).map _
      cases SessionKeys.ofBytes enc mac <;> rfl

namespace Batch

theorem ofArguments_words (henc : IsPlain options.enc) (hmac : IsPlain options.mac)
    {texts : List String} (hne : texts ≠ []) (hplain : ∀ text ∈ texts, IsPlain text) :
    Invocation.ofArguments (batch.words options texts) = .ok (batch.invocation options texts) := by
  obtain ⟨first, rest, rfl⟩ := List.exists_cons_of_ne_nil hne
  have hsub : batch.subcommand ≠ .channel := by cases batch <;> decide
  have htakes (k : Nat) : batch.subcommand.takesPositional k = true := by cases batch <;> rfl
  have hcounter : readNumber Counter.count options.counter.toNat.repr =
      some options.counter.toNat := readNumber_repr options.counter.isLt
  have hinvocation :
      (sessionReading options.enc options.mac options.counter.toNat.repr
        (first :: rest)).invocation? batch.subcommand =
      some (batch.invocation options (first :: rest)) := by
    have hsession := @session?_sessionReading options.enc options.mac _ _ hcounter (first :: rest)
    rw [BitVec.ofNat_toNat, BitVec.setWidth_eq] at hsession
    have hreverse : (sessionReading options.enc options.mac options.counter.toNat.repr
        (first :: rest)).positionals.reverse = first :: rest := List.reverse_reverse _
    unfold Reading.invocation?
    rw [hsession, hreverse]
    cases batch <;> rfl
  have hread : Invocation.ofArguments (batch.words options (first :: rest)) =
      readSubcommand batch.subcommand (sessionWords options.enc options.mac
        options.counter.toNat.repr ++ first :: rest) := by
    cases batch <;> rfl
  rw [hread, readSubcommand_session hsub henc hmac hcounter _ hplain fun k _ => htakes k,
    hinvocation]

theorem run_eq (batch : Batch) (options : SessionOptions) (texts : List String) :
    batch.run options texts = openSession options >>= fun s => lines batch.one s texts := by
  cases batch <;> rfl

theorem run_advance (n : Nat) (texts : List String) :
    batch.run (options.advance n) texts =
      openSession options >>= fun s => lines batch.one (s.advance n) texts := by
  rw [run_eq, openSession_advance]
  cases openSession options <;> rfl

/-- **The cut.** The texts after it are dealt with as if nothing had come before but their number. -/
theorem run_append_eq_ok_iff {front back ls : List String} :
    batch.run options (front ++ back) = .ok ls ↔
      ∃ before after, batch.run options front = .ok before ∧
        batch.run (options.advance front.length) back = .ok after ∧ ls = before ++ after := by
  simp only [run_eq batch options, run_advance]
  cases openSession options with
  | error e => simp [bind, Except.bind]
  | ok s => exact lines_append_eq_ok_iff batch.stepwise

theorem run_eq_error_iff {texts : List String} {e : ToolError} :
    batch.run options texts = .error e ↔
      (texts = [] ∧ openSession options = .error e) ∨
      ∃ i text, texts[i]? = some text ∧
        (∀ j < i, ∀ t, texts[j]? = some t →
          ∃ line, batch.run (options.advance j) [t] = .ok [line]) ∧
        batch.run (options.advance i) [text] = .error e := by
  simp only [run_eq batch options, run_advance]
  cases openSession options with
  | error e' =>
    constructor
    · intro h
      cases texts with
      | nil =>
        cases h
        exact .inl ⟨rfl, rfl⟩
      | cons text rest => exact .inr ⟨0, text, rfl, by simp, h⟩
    · rintro (⟨-, h⟩ | ⟨i, text, -, -, h⟩)
      · cases h
        rfl
      · exact h
  | ok s =>
    simp only [reduceCtorEq, and_false, false_or]
    exact lines_eq_error_iff batch.stepwise

theorem exists_read_of_run_protect {texts ls : List String}
    (h : Batch.protect.run options texts = .ok ls) :
    ls.length = texts.length ∧ ∀ i line, ls[i]? = some line →
      ∃ s text c w bytes, openSession options = .ok s ∧ texts[i]? = some text ∧
        readCommand text = .ok c ∧ ((s.advance i).encrypt c).1 = .ok w ∧
        Hex.read line = .ok bytes ∧ Command.parse bytes = .ok w := by
  rw [run_eq] at h
  cases hopen : openSession options with
  | error e =>
    rw [hopen] at h
    cases h
  | ok s =>
    rw [hopen] at h
    obtain ⟨hlength, hlines⟩ := exists_one_of_lines stepwise_protectOne h
    refine ⟨hlength, fun i line hline => ?_⟩
    obtain ⟨text, after, htext, hone⟩ := hlines i line hline
    obtain ⟨c, w, bytes, hprotected⟩ := exists_read_of_protectOne hone
    exact ⟨s, text, c, w, bytes, rfl, htext, hprotected⟩

end Batch

end Tool

/-- **Resumption.** A session hands on nothing but its keys and its counter. Each call of a run is
answered as by a session opened for it alone, `i` values later. Texts on a command line can be cut
anywhere: they succeed when both parts do, the second one from a counter moved on, with the lines of
both; the first text that fails alone gives the error. What protecting prints is read back as the
protected command. -/
theorem resumption (s : Session) (calls : List SessionCall) (batch : Tool.Batch)
    (options : SessionOptions) (xs ys : List String) :
    ((s.run calls).1 = calls.mapIdx (fun i call => ((s.advance i).call call).1) ∧
      ∀ i ≤ calls.length, (s.run (calls.take i)).2 = s.advance i ∧
        (s.advance i).counter.toNat = (s.counter.toNat + i) % 2 ^ 128) ∧
    ((options.advance xs.length).counter.toNat =
        (options.counter.toNat + xs.length) % 2 ^ 128 ∧
      ∀ ls, batch.run options (xs ++ ys) = .ok ls ↔
        ∃ before after, batch.run options xs = .ok before ∧
          batch.run (options.advance xs.length) ys = .ok after ∧ ls = before ++ after) ∧
    (∀ e, batch.run options xs = .error e ↔
      (xs = [] ∧ Tool.openSession options = .error e) ∨
      ∃ i text, xs[i]? = some text ∧
        (∀ j < i, ∀ t, xs[j]? = some t →
          ∃ line, batch.run (options.advance j) [t] = .ok [line]) ∧
        batch.run (options.advance i) [text] = .error e) ∧
    (∀ ls, Tool.Batch.protect.run options xs = .ok ls →
      ls.length = xs.length ∧ ∀ i line, ls[i]? = some line →
        ∃ s text c w bytes, Tool.openSession options = .ok s ∧ xs[i]? = some text ∧
          Tool.readCommand text = .ok c ∧ ((s.advance i).encrypt c).1 = .ok w ∧
          Hex.read line = .ok bytes ∧ Command.parse bytes = .ok w) ∧
    (Tool.IsPlain options.enc → Tool.IsPlain options.mac → xs ≠ [] →
      (∀ text ∈ xs, Tool.IsPlain text) →
      Invocation.ofArguments (batch.words options xs) = .ok (batch.invocation options xs)) := by
  refine ⟨⟨s.run_fst calls, fun i hi => ⟨?_, s.toNat_counter_advance i⟩⟩,
    ⟨?_, fun _ => Tool.Batch.run_append_eq_ok_iff⟩, fun _ => Tool.Batch.run_eq_error_iff,
    fun _ => Tool.Batch.exists_read_of_run_protect,
    fun henc hmac => Tool.Batch.ofArguments_words henc hmac⟩
  · rw [Session.run_snd, List.length_take, Nat.min_eq_left hi]
    rfl
  · exact options.counter.toNat_add_ofNat xs.length

/-- A command line that goes past the last counter value goes on at zero. -/
theorem resumption_wrapped :
    let key := "00000000000000000000000000000000"
    let options : SessionOptions := ⟨key, key, BitVec.allOnes 128⟩
    ∃ before after, Tool.Batch.protect.run options ["00B00000"] = .ok before ∧
      Tool.Batch.protect.run ⟨key, key, .zero⟩ ["00B00000"] = .ok after ∧
      ["0CB000000A8E089663388171A3B0F800", "0CB000000A8E08E305576BE712D06100"] =
        before ++ after := by
  intro key options
  have hlines : Tool.Batch.protect.run options (["00B00000"] ++ ["00B00000"]) =
      .ok ["0CB000000A8E089663388171A3B0F800", "0CB000000A8E08E305576BE712D06100"] := by
    cbv
  have hwrap : options.advance 1 = ⟨key, key, .zero⟩ :=
    congrArg (SessionOptions.mk key key) (by decide : BitVec.allOnes 128 + 1#128 = 0#128)
  have hcut := (resumption ⟨⟨default, default⟩, .zero⟩ [] .protect options ["00B00000"]
    ["00B00000"]).2.1.2
  rw [List.length_singleton, hwrap] at hcut
  exact (hcut _).mp hlines

end SmartCard
