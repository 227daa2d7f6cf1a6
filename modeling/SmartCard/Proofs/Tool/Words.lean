import SmartCard.Tool.Arguments

/-!
# Reading the words of a command line

Settling lags one word behind, so a reading is described by what it would settle to (`Settles`). An
option with its value and a positional word each add to that. `readSubcommand_session` puts them
together to read the options of a session and then any positional words; `ofArguments_channel` reads
positional words alone.
-/

namespace SmartCard.Tool

/-! ## Plain words -/

/-- The text does not start like an option. -/
def IsPlain (text : String) : Prop := text.toList.head? ≠ some '-'

theorem IsPlain.ofString {text : String} (h : IsPlain text) : Word.ofString text = .plain text := by
  unfold Word.ofString
  split
  next heq => exact absurd (by rw [heq]; rfl) h
  next heq => exact absurd (by rw [heq]; rfl) h
  next heq => exact absurd (by rw [heq]; rfl) h
  next => rfl

theorem isPlain_of_readNumber {bound n : Nat} {text : String}
    (h : readNumber bound text = some n) : IsPlain text := by
  intro hhead
  obtain ⟨rest, htext⟩ := List.head?_eq_some_iff.mp hhead
  have hdigits : readDigits ('-' :: rest) = none := by
    unfold readDigits
    exact if_pos (by simp)
  have hnone : readNumber bound text = (readDigits ('-' :: rest)).filter (· < bound) := by
    unfold readNumber
    rw [htext]
    rfl
  rw [hnone, hdigits] at h
  cases h

theorem readDigits_toDigits (n : Nat) : readDigits (Nat.toDigits 10 n) = some n := by
  have hall : (Nat.toDigits 10 n).all Char.isDigit = true := by
    apply List.all_eq_true.mpr
    intro c hc
    exact Nat.isDigit_of_mem_toDigits (by decide) (by decide) hc
  have hvalue : (Nat.toDigits 10 n).foldl (fun n c => n * 10 + (c.toNat - '0'.toNat)) 0 = n := by
    simp only [Nat.mul_comm _ 10]
    exact Nat.ofDigitChars_ten_toDigits
  unfold readDigits
  rw [if_neg (by simp [hall]), hvalue]

/-- Decimal digits have no sign in front. -/
theorem toDigits_ne_cons {c : Char} (h : c.isDigit = false) (n : Nat) (rest : List Char) :
    Nat.toDigits 10 n ≠ c :: rest := by
  intro heq
  have hdigit : c.isDigit = true :=
    Nat.isDigit_of_mem_toDigits (b := 10) (n := n) (by decide) (by decide) (by simp [heq])
  rw [h] at hdigit
  cases hdigit

/-- A number is read back from its decimal digits. -/
theorem readNumber_repr {bound n : Nat} (h : n < bound) : readNumber bound n.repr = some n := by
  unfold readNumber
  rw [Nat.toList_repr]
  split
  next rest heq => exact absurd heq (toDigits_ne_cons (by decide) n rest)
  next => simp [readDigits_toDigits, h]

theorem readByte_repr {n : Nat} (h : n < 256) : readByte n.repr = some (.ofNat n) := by
  have hinteger : readInteger n.repr = some (Int.ofNat n) := by
    unfold readInteger
    rw [Nat.toList_repr]
    split
    next rest heq => exact absurd heq (toDigits_ne_cons (by decide) n rest)
    next rest heq => exact absurd heq (toDigits_ne_cons (by decide) n rest)
    next =>
      rw [readDigits_toDigits]
      rfl
  have hrange : 0 ≤ Int.ofNat n ∧ Int.ofNat n < 256 := by
    simp only [Int.ofNat_eq_natCast]
    omega
  unfold readByte
  rw [hinteger, Option.bind_some, if_pos hrange]
  rfl

theorem isPlain_repr (n : Nat) : IsPlain n.repr := by
  intro hhead
  rw [Nat.toList_repr] at hhead
  obtain ⟨rest, heq⟩ := List.head?_eq_some_iff.mp hhead
  exact toDigits_ne_cons (by decide) n rest heq

namespace Reading

/-! ## Words accepted in a row -/

/-- The words are accepted one after another, from `r` to `r'`. -/
def Accepts (r : Reading) (sub : Subcommand) (words : List String) (r' : Reading) : Prop :=
  words.foldlM (·.accept sub) r = .ok r'

variable {r r₁ r₂ : Reading} {sub : Subcommand} {words : List String}
  {options : List (OptionName × String)} {before : List String}

theorem Accepts.nil : r.Accepts sub [] r := rfl

theorem Accepts.cons {word : String} (h : r.accept sub word = .ok r₁)
    (hrest : r₁.Accepts sub words r₂) : r.Accepts sub (word :: words) r₂ := by
  unfold Accepts
  rw [List.foldlM_cons, h]
  exact hrest

theorem Accepts.append {more : List String} (h : r.Accepts sub words r₁)
    (hmore : r₁.Accepts sub more r₂) : r.Accepts sub (words ++ more) r₂ := by
  unfold Accepts
  rw [List.foldlM_append, show words.foldlM (·.accept sub) r = .ok r₁ from h]
  exact hmore

/-! ## What a reading settles to -/

/-- The reading settles to these options and positional words, last ones first, and does not wait
for a value. -/
structure Settles (r : Reading) (sub : Subcommand) (options : List (OptionName × String))
    (positionals : List String) : Prop where
  literal : r.literal = false
  complete : ∀ name, r.pending ≠ some (.option name none)
  count : r.positionalCount = positionals.length
  settle : r.settle sub = .ok { options, positionals }

theorem settles_empty (sub : Subcommand) : ({} : Reading).Settles sub [] [] :=
  ⟨rfl, by simp, rfl, rfl⟩

theorem Settles.option (h : r.Settles sub options before) {word key value : String}
    {name : OptionName} (hword : Word.ofString word = .long key none)
    (hname : key ≠ "help" ∧ sub.option? key = some name) (hvalue : IsPlain value)
    (hnew : options.lookup name = none)
    (hcounter : name = .counter → readNumber Counter.count value ≠ none) :
    ∃ r', r.Accepts sub [word, value] r' ∧ r'.Settles sub ((name, value) :: options) before := by
  have hfirst : r.accept sub word =
      .ok { options, positionals := before, pending := some (.option name none) } := by
    unfold accept acceptLong
    rw [h.literal, hword]
    simp only [hname.1, hname.2, h.settle]
    rfl
  have hsecond (r : Reading) (hpending : r.pending = some (.option name none))
      (hliteral : r.literal = false) :
      r.accept sub value = .ok { r with pending := some (.option name (some value)) } := by
    unfold accept acceptPlain
    rw [hliteral, hvalue.ofString]
    simp only [hpending]
    rfl
  have hadd : addOption { options, positionals := before } name value =
      .ok { options := (name, value) :: options, positionals := before } := by
    unfold addOption
    rw [if_neg (by simp [hnew]), if_neg (fun hbad => hcounter hbad.1 hbad.2)]
  exact ⟨_, .cons hfirst (.cons (hsecond _ rfl rfl) .nil), rfl, by simp, rfl, hadd⟩

/-- The second positional word of `channel` has to be a number that a byte holds. -/
theorem Settles.positional (h : r.Settles sub options before) {text : String}
    (hplain : IsPlain text) (htakes : sub.takesPositional before.length = true)
    (hnumber : sub = .channel → before.length = 1 → readByte text ≠ none) :
    ∃ r', r.accept sub text = .ok r' ∧ r'.Settles sub options (text :: before) := by
  have haccept : r.accept sub text = r.acceptPositional sub text := by
    unfold accept acceptPlain
    rw [h.literal, hplain.ofString]
    dsimp only
    rw [if_neg (by decide)]
    split
    next name heq => exact absurd heq (h.complete _)
    next => rfl
  have hpending : r.acceptPositional sub text =
      .ok { options, positionals := before, pending := some (.positional text) } := by
    unfold acceptPositional
    rw [h.count, htakes, h.settle]
    rfl
  have hadd : addPositional { options, positionals := before } sub text =
      .ok { options, positionals := text :: before } := by
    unfold addPositional
    exact if_neg fun hbad => hnumber hbad.1 hbad.2.1 hbad.2.2
  exact ⟨_, haccept.trans hpending, rfl, by simp, rfl, hadd⟩

/-- The induction is on the words, with those before them in general. -/
theorem Settles.positionals (h : r.Settles sub options before) (hsub : sub ≠ .channel)
    (texts : List String) (hplain : ∀ text ∈ texts, IsPlain text)
    (htakes : ∀ k, k < texts.length → sub.takesPositional (before.length + k) = true) :
    ∃ r', r.Accepts sub texts r' ∧ r'.Settles sub options (texts.reverse ++ before) := by
  induction texts generalizing r before with
  | nil => exact ⟨r, .nil, h⟩
  | cons text rest ih =>
    obtain ⟨r₁, haccept, h₁⟩ :=
      h.positional (hplain text List.mem_cons_self) (htakes 0 (by simp)) fun heq => absurd heq hsub
    have htakes₁ (k : Nat) (hk : k < rest.length) :
        sub.takesPositional ((text :: before).length + k) = true := by
      have := htakes (k + 1) (by simpa using hk)
      rwa [List.length_cons, Nat.add_assoc, Nat.add_comm 1 k]
    obtain ⟨r₂, hrest, h₂⟩ := ih h₁ (fun t ht => hplain t (List.mem_cons_of_mem _ ht)) htakes₁
    exact ⟨r₂, .cons haccept hrest, by simpa using h₂⟩

/-- All words of a subcommand are taken in before it is asked what they come to. -/
theorem Settles.readSubcommand {positionals : List String}
    (haccepts : ({} : Reading).Accepts sub words r) (h : r.Settles sub options positionals) :
    readSubcommand sub words =
      match invocation? { options, positionals } sub with
      | some invocation => .ok invocation
      | none => .error .missingArgument := by
  unfold Tool.readSubcommand
  rw [show words.foldlM (fun r => Reading.accept r sub) ({} : Reading) = .ok r from haccepts]
  show (r.settle sub >>= _) = _
  rw [h.settle]
  rfl

end Reading

/-! ## Subcommands with a session -/

/-- The words of the options of a session. -/
def sessionWords (enc mac counter : String) : List String :=
  ["--enc", enc, "--mac", mac, "--counter", counter]

variable {sub : Subcommand} {enc mac counter : String} {n : Nat}

theorem settles_sessionWords (hsub : sub ≠ .channel) (henc : IsPlain enc) (hmac : IsPlain mac)
    (hcounter : readNumber Counter.count counter = some n) :
    ∃ r, ({} : Reading).Accepts sub (sessionWords enc mac counter) r ∧
      r.Settles sub [(.counter, counter), (.mac, mac), (.enc, enc)] [] := by
  have hname (key : String) : sub.option? key = OptionName.ofString? key := if_neg hsub
  have hword₁ : Word.ofString "--enc" = .long "enc" none := rfl
  have hword₂ : Word.ofString "--mac" = .long "mac" none := rfl
  have hword₃ : Word.ofString "--counter" = .long "counter" none := rfl
  obtain ⟨r₁, haccepts₁, h₁⟩ := (Reading.settles_empty sub).option hword₁
    ⟨by decide, hname "enc"⟩ henc rfl (by simp)
  obtain ⟨r₂, haccepts₂, h₂⟩ := h₁.option hword₂ ⟨by decide, hname "mac"⟩ hmac rfl (by simp)
  obtain ⟨r₃, haccepts₃, h₃⟩ := h₂.option hword₃ ⟨by decide, hname "counter"⟩
    (isPlain_of_readNumber hcounter) rfl (by simp [hcounter])
  exact ⟨r₃, (haccepts₁.append haccepts₂).append haccepts₃, h₃⟩

/-- What these options and then positional words settle to. -/
def sessionReading (enc mac counter : String) (texts : List String) : Reading where
  options := [(.counter, counter), (.mac, mac), (.enc, enc)]
  positionals := texts.reverse

theorem session?_sessionReading (hcounter : readNumber Counter.count counter = some n)
    (texts : List String) :
    (sessionReading enc mac counter texts).session? = some ⟨enc, mac, .ofNat 128 n⟩ := by
  show some (SessionOptions.mk enc mac (.ofNat 128 ((readNumber Counter.count counter).getD 0))) = _
  rw [hcounter]
  rfl

/-- **Words of a subcommand.** The options of a session, then positional words. -/
theorem readSubcommand_session (hsub : sub ≠ .channel) (henc : IsPlain enc) (hmac : IsPlain mac)
    (hcounter : readNumber Counter.count counter = some n) (texts : List String)
    (hplain : ∀ text ∈ texts, IsPlain text)
    (htakes : ∀ k, k < texts.length → sub.takesPositional k = true) :
    readSubcommand sub (sessionWords enc mac counter ++ texts) =
      match (sessionReading enc mac counter texts).invocation? sub with
      | some invocation => .ok invocation
      | none => .error .missingArgument := by
  obtain ⟨r₁, haccepts₁, h₁⟩ := settles_sessionWords hsub henc hmac hcounter
  obtain ⟨r₂, haccepts₂, h₂⟩ := h₁.positionals hsub texts hplain (by simpa using htakes)
  rw [h₂.readSubcommand (haccepts₁.append haccepts₂), List.append_nil]
  rfl

/-- An exchange takes exactly two positional words. -/
theorem ofArguments_exchange (henc : IsPlain enc) (hmac : IsPlain mac)
    (hcounter : readNumber Counter.count counter = some n) {command response : String}
    (hcommand : IsPlain command) (hresponse : IsPlain response) :
    Invocation.ofArguments ("exchange" :: (sessionWords enc mac counter ++ [command, response])) =
      .ok (.exchange ⟨enc, mac, .ofNat 128 n⟩ command response) := by
  have hplain : ∀ text ∈ [command, response], IsPlain text := by simp [hcommand, hresponse]
  have htakes (k : Nat) (hk : k < [command, response].length) :
      Subcommand.takesPositional .exchange k = true := decide_eq_true hk
  have hinvocation : (sessionReading enc mac counter [command, response]).invocation? .exchange =
      some (.exchange ⟨enc, mac, .ofNat 128 n⟩ command response) := by
    show ((sessionReading enc mac counter [command, response]).session? >>= _) = _
    rw [session?_sessionReading hcounter]
    rfl
  show readSubcommand .exchange (sessionWords enc mac counter ++ [command, response]) = _
  rw [readSubcommand_session (by decide) henc hmac hcounter _ hplain htakes, hinvocation]

/-! ## The subcommand without options -/

/-- `channel` takes a command and a number. -/
theorem ofArguments_channel {command number : String} {n : UInt8} (hcommand : IsPlain command)
    (hplain : IsPlain number) (hnumber : readByte number = some n) :
    Invocation.ofArguments ["channel", command, number] = .ok (.channel command n) := by
  obtain ⟨r₁, haccept₁, h₁⟩ :=
    (Reading.settles_empty .channel).positional hcommand rfl (by simp)
  obtain ⟨r₂, haccept₂, h₂⟩ := h₁.positional hplain rfl (by simp [hnumber])
  have hinvocation : Reading.invocation? { positionals := [number, command] } .channel =
      some (.channel command n) := by
    show (readByte number >>= _) = _
    rw [hnumber]
    rfl
  show readSubcommand .channel [command, number] = _
  rw [h₂.readSubcommand (.cons haccept₁ (.cons haccept₂ .nil)), hinvocation]

end SmartCard.Tool
