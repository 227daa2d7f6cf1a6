import SmartCard.Tool.Arguments

/-! The command line program. -/

open SmartCard

namespace SmartCard.Tool

def usage : String :=
  "Usage: smartcard [-v] protect|unprotect|exchange|channel [OPTIONS] <APDU>..."

/-- What is printed, on the error stream if the flag is set, and the exit code. -/
def usageOutput : UsageError → String × Bool × UInt32
  | .help => (usage, false, 0)
  | .version => ("smartcard 0.1.0", false, 0)
  | .helpForNoArguments => (usage, true, 2)
  | .unknownSubcommand => ("error: unrecognized subcommand", true, 2)
  | .missingSubcommand => ("error: a subcommand is required", true, 2)
  | .unknownArgument => ("error: unexpected argument", true, 2)
  | .repeatedOption => ("error: an option is given more than once", true, 2)
  | .missingValue => ("error: an option lacks its value", true, 2)
  | .unexpectedValue => ("error: a flag takes no value", true, 2)
  | .badNumber => ("error: invalid number", true, 2)
  | .missingArgument => ("error: a required argument is missing", true, 2)

end SmartCard.Tool

def main (arguments : List String) : IO UInt32 := do
  match Invocation.ofArguments arguments with
  | .error e =>
    let (text, isError, code) := Tool.usageOutput e
    if isError then IO.eprintln text else IO.println text
    return code
  | .ok invocation =>
    match invocation.run with
    | .ok lines =>
      for line in lines do IO.println line
      return 0
    | .error e =>
      IO.eprintln ("error: " ++ e.message)
      return 1
