import SmartCard.Tool.Invocation

/-!
The words of a command line, read into an invocation.

Words are taken in order. The value of an option and a positional word are settled, that is checked
and kept, when the next word is accepted or the words end; so a word that is refused outright wins
over a bad value before it.
-/

namespace SmartCard

/-- Why the words are no invocation. A request for a text about the tool counts as one. -/
inductive UsageError
  | help
  | helpForNoArguments
  | version
  | unknownSubcommand
  | missingSubcommand
  | unknownArgument
  | repeatedOption
  | missingValue
  | unexpectedValue
  | badNumber
  | missingArgument
  deriving DecidableEq, Repr

namespace Tool

/-! ## Numbers -/

/-- The number that decimal digits spell. There has to be one digit at least. -/
def readDigits (cs : List Char) : Option Nat :=
  if cs.isEmpty || !cs.all Char.isDigit then none
  else some (cs.foldl (fun n c => n * 10 + (c.toNat - '0'.toNat)) 0)

/-- A number below `bound` in decimal digits, after an optional plus sign. -/
def readNumber (bound : Nat) (text : String) : Option Nat :=
  let digits := match text.toList with
    | '+' :: rest => rest
    | cs => cs
  (readDigits digits).filter (· < bound)

/-- An integer in decimal digits, after an optional sign. -/
def readInteger (text : String) : Option Int :=
  match text.toList with
  | '-' :: rest => (readDigits rest).map fun n => -Int.ofNat n
  | '+' :: rest => (readDigits rest).map Int.ofNat
  | cs => (readDigits cs).map Int.ofNat

/-- An integer that a byte holds. A negative zero is zero. -/
def readByte (text : String) : Option UInt8 :=
  (readInteger text).bind fun n => if 0 ≤ n ∧ n < 256 then some (.ofNat n.toNat) else none

/-! ## Words -/

/-- What a word looks like, before anything is known about the options in force. -/
inductive Word
  /-- Two hyphens: all later words are positional. -/
  | literalMark
  | long (name : String) (value : Option String)
  | short (flags : List Char)
  | plain (text : String)
  deriving DecidableEq, Repr

/-- A single hyphen is a plain word. -/
def Word.ofString (text : String) : Word :=
  match text.toList with
  | ['-', '-'] => .literalMark
  | '-' :: '-' :: rest =>
    let (name, value) := rest.span (· ≠ '=')
    .long (String.ofList name) (value.tail?.map String.ofList)
  | '-' :: c :: rest => .short (c :: rest)
  | _ => .plain text

/-! ## Subcommands -/

inductive Subcommand
  | protect
  | unprotect
  | exchange
  | channel
  deriving DecidableEq, Repr

inductive OptionName
  | enc
  | mac
  | counter
  deriving DecidableEq, Repr

def OptionName.ofString? : String → Option OptionName
  | "enc" => some .enc
  | "mac" => some .mac
  | "counter" => some .counter
  | _ => none

namespace Subcommand

def ofString? : String → Option Subcommand
  | "protect" => some .protect
  | "unprotect" => some .unprotect
  | "exchange" => some .exchange
  | "channel" => some .channel
  | _ => none

def option? (sub : Subcommand) (name : String) : Option OptionName :=
  if sub = channel then none else OptionName.ofString? name

/-- Whether a subcommand takes one more positional word after `count` of them. -/
def takesPositional : Subcommand → Nat → Bool
  | protect, _ | unprotect, _ => true
  | exchange, count | channel, count => count < 2

end Subcommand

/-! ## Reading the words of a subcommand -/

/-- A word that was accepted and is not settled yet. -/
inductive Pending
  | option (name : OptionName) (value : Option String)
  | positional (text : String)
  deriving DecidableEq, Repr

structure Reading where
  options : List (OptionName × String) := []
  /-- The positional words settled so far, last one first. -/
  positionals : List String := []
  pending : Option Pending := none
  literal : Bool := false
  deriving DecidableEq, Repr

namespace Reading

/-- Positional words, the pending one too. -/
def positionalCount (r : Reading) : Nat :=
  r.positionals.length +
    match r.pending with
    | some (.positional _) => 1
    | _ => 0

def addOption (r : Reading) (name : OptionName) (value : String) : Except UsageError Reading :=
  if (r.options.lookup name).isSome then .error .repeatedOption
  else if name = .counter ∧ readNumber Counter.count value = none then .error .badNumber
  else .ok { r with options := (name, value) :: r.options }

/-- The second word of `channel` is the number of a channel, in a byte. -/
def addPositional (r : Reading) (sub : Subcommand) (text : String) : Except UsageError Reading :=
  if sub = .channel ∧ r.positionals.length = 1 ∧ readByte text = none then .error .badNumber
  else .ok { r with positionals := text :: r.positionals }

def settle (r : Reading) (sub : Subcommand) : Except UsageError Reading :=
  match r.pending with
  | none => .ok r
  | some (.option _ none) => .error .missingValue
  | some (.option name (some value)) => { r with pending := none }.addOption name value
  | some (.positional text) => { r with pending := none }.addPositional sub text

def settleThen (r : Reading) (sub : Subcommand) (e : UsageError) : Except UsageError Reading := do
  let _ ← r.settle sub
  throw e

def acceptPositional (r : Reading) (sub : Subcommand) (text : String) :
    Except UsageError Reading := do
  if !sub.takesPositional r.positionalCount then throw .unknownArgument
  return { ← r.settle sub with pending := some (.positional text) }

def acceptLong (r : Reading) (sub : Subcommand) (name : String) (value : Option String) :
    Except UsageError Reading :=
  if name = "help" then
    if value.isSome then .error .unexpectedValue else r.settleThen sub .help
  else match sub.option? name with
    | none => .error .unknownArgument
    | some name => do
      let r ← r.settle sub
      match value with
      | some value => r.addOption name value
      | none => return { r with pending := some (.option name none) }

def acceptShort (r : Reading) (sub : Subcommand) (flags : List Char) : Except UsageError Reading :=
  if flags.head? = some 'h' then r.settleThen sub .help else .error .unknownArgument

/-- A plain word is the value of an option that waits for one, or else positional. -/
def acceptPlain (r : Reading) (sub : Subcommand) (text : String) : Except UsageError Reading :=
  match r.pending with
  | some (.option name none) => .ok { r with pending := some (.option name (some text)) }
  | _ => r.acceptPositional sub text

def accept (r : Reading) (sub : Subcommand) (text : String) : Except UsageError Reading :=
  if r.literal then r.acceptPositional sub text
  else match Word.ofString text with
    | .literalMark => .ok { r with literal := true }
    | .long name value => r.acceptLong sub name value
    | .short flags => r.acceptShort sub flags
    | .plain text => r.acceptPlain sub text

def session? (r : Reading) : Option SessionOptions := do
  let enc ← r.options.lookup .enc
  let mac ← r.options.lookup .mac
  let counter := (r.options.lookup .counter).bind (readNumber Counter.count)
  return { enc, mac, counter := .ofNat 128 (counter.getD 0) }

/-- The invocation, if no option and no positional word is missing. -/
def invocation? (r : Reading) (sub : Subcommand) : Option Invocation :=
  match sub, r.positionals.reverse with
  | .protect, first :: rest => return .protect (← r.session?) (first :: rest)
  | .unprotect, first :: rest => return .unprotect (← r.session?) (first :: rest)
  | .exchange, [command, response] => return .exchange (← r.session?) command response
  | .channel, [command, number] => return .channel command (← readByte number)
  | _, _ => none

end Reading

def readSubcommand (sub : Subcommand) (words : List String) : Except UsageError Invocation := do
  let r ← words.foldlM (·.accept sub) ({} : Reading)
  let r ← r.settle sub
  match r.invocation? sub with
  | some invocation => return invocation
  | none => throw .missingArgument

/-! ## Words before the subcommand -/

/-- `help`, then names of subcommands one below another. -/
def readHelp : List String → UsageError
  | [] => .help
  | [name] =>
    if name = "help" ∨ (Subcommand.ofString? name).isSome then .help else .unknownSubcommand
  | _ => .unknownSubcommand

/-- Read short flags; the result tells whether verbose output was asked for before or here. -/
def readFlags (verbose : Bool) : List Char → Except UsageError Bool
  | [] => .ok verbose
  | 'v' :: rest => if verbose then .error .repeatedOption else readFlags true rest
  | 'h' :: _ => .error .help
  | 'V' :: _ => .error .version
  | _ => .error .unknownArgument

def readTopLong (verbose : Bool) (name : String) (value : Option String) :
    Except UsageError Bool :=
  if name = "help" ∨ name = "version" ∨ name = "verbose" then
    if value.isSome then .error .unexpectedValue
    else if name = "help" then .error .help
    else if name = "version" then .error .version
    else if verbose then .error .repeatedOption
    else .ok true
  else .error .unknownArgument

/-- After the literal mark a word is refused, one that names a subcommand for being after it. -/
def readAfterMark (verbose : Bool) : List String → UsageError
  | [] => if verbose then .missingSubcommand else .helpForNoArguments
  | word :: _ =>
    if word = "help" ∨ (Subcommand.ofString? word).isSome then .unknownArgument
    else .unknownSubcommand

def readWords (verbose : Bool) : List String → Except UsageError Invocation
  | [] => .error (if verbose then .missingSubcommand else .helpForNoArguments)
  | word :: rest =>
    match Word.ofString word with
    | .literalMark => .error (readAfterMark verbose rest)
    | .long name value => do readWords (← readTopLong verbose name value) rest
    | .short flags => do readWords (← readFlags verbose flags) rest
    | .plain text =>
      if text = "help" then .error (readHelp rest)
      else match Subcommand.ofString? text with
        | some sub => readSubcommand sub rest
        | none => .error .unknownSubcommand

end Tool

/-- The invocation that a command line asks for. -/
def Invocation.ofArguments (arguments : List String) : Except UsageError Invocation :=
  Tool.readWords false arguments

end SmartCard
