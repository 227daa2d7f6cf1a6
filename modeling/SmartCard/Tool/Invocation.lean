import SmartCard.Apdu.LogicalChannel
import SmartCard.Hex.Reader
import SmartCard.Messaging.Session

/-! The commands of the tool, on hexadecimal texts, and the lines that they print. -/

namespace SmartCard

/-- Texts of both keys, and the counter before the first message. -/
structure SessionOptions where
  enc : String
  mac : String
  counter : Counter := .zero
  deriving DecidableEq, Repr

inductive Invocation
  | protect (session : SessionOptions) (commands : List String)
  | unprotect (session : SessionOptions) (responses : List String)
  | exchange (session : SessionOptions) (command response : String)
  | channel (command : String) (number : UInt8)
  deriving DecidableEq, Repr

inductive ToolError
  | hex (e : HexError)
  | apdu (e : ApduError)
  | messaging (e : MessagingError)
  deriving DecidableEq, Repr

def ToolError.message : ToolError → String
  | hex e => e.message
  | apdu e => e.message
  | messaging e => e.message

namespace Tool

def readHex (text : String) : Except ToolError Bytes := (Hex.read text).mapError .hex

def readCommand (text : String) : Except ToolError Command := do
  (Command.parse (← readHex text)).mapError .apdu

def printCommand (c : Command) : Except ToolError String :=
  (c.encode.map Hex.print).mapError .apdu

def openSession (options : SessionOptions) : Except ToolError Session := do
  let enc ← readHex options.enc
  let mac ← readHex options.mac
  let keys ← (SessionKeys.ofBytes enc mac).mapError .messaging
  return ⟨keys, options.counter⟩

def protectOne (s : Session) (text : String) : Except ToolError (String × Session) := do
  let c ← readCommand text
  let (result, s) := s.encrypt c
  let line ← printCommand (← result.mapError .messaging)
  return (line, s)

def unprotectOne (s : Session) (text : String) : Except ToolError (String × Session) := do
  let bytes ← readHex text
  let (result, s) := s.decrypt bytes
  let response ← result.mapError .messaging
  return (response.display, s)

/-- One line for each text, in order, all within one session. The first failure ends it all. -/
def lines (one : Session → String → Except ToolError (String × Session)) (s : Session) :
    List String → Except ToolError (List String)
  | [] => .ok []
  | text :: rest => do
    let (line, s) ← one s text
    return line :: (← lines one s rest)

/-- The command is protected before the text of the response is looked at. -/
def exchange (s : Session) (command response : String) : Except ToolError (List String) := do
  let c ← readCommand command
  let (wrapped, s) := s.encrypt c
  let wrapped ← wrapped.mapError .messaging
  let (plain, _) := s.decrypt (← readHex response)
  let plain ← plain.mapError .messaging
  return ["> " ++ (← printCommand wrapped), "< " ++ plain.display]

def channel (command : String) (number : UInt8) : Except ToolError String := do
  let c ← readCommand command
  printCommand (← (c.addressedTo number).mapError .apdu)

end Tool

/-- The lines that an invocation prints. -/
def Invocation.run : Invocation → Except ToolError (List String)
  | protect options commands => do Tool.lines Tool.protectOne (← Tool.openSession options) commands
  | unprotect options responses => do
    Tool.lines Tool.unprotectOne (← Tool.openSession options) responses
  | exchange options command response => do
    Tool.exchange (← Tool.openSession options) command response
  | channel command number => do return [← Tool.channel command number]

end SmartCard
