import SmartCard.Messaging.Session

/-! The calls that a session takes, as data, and runs of them. -/

namespace SmartCard

inductive SessionCall
  | encrypt (c : Command)
  | encryptBytes (bytes : Bytes)
  | decrypt (bytes : Bytes)
  | decryptResponse (r : Response)
  deriving DecidableEq, Repr

inductive SessionReply
  | command (c : Command)
  | wire (bytes : Bytes)
  | response (r : Response)
  deriving DecidableEq, Repr

namespace Session

def call (s : Session) : SessionCall → Except MessagingError SessionReply × Session
  | .encrypt c =>
    let (result, s) := s.encrypt c
    (result.map .command, s)
  | .encryptBytes bytes =>
    let (result, s) := s.encryptBytes bytes
    (result.map .wire, s)
  | .decrypt bytes =>
    let (result, s) := s.decrypt bytes
    (result.map .response, s)
  | .decryptResponse r =>
    let (result, s) := s.decryptResponse r
    (result.map .response, s)

/-- What every call answers, and the session after the last one. -/
def run (s : Session) : List SessionCall → List (Except MessagingError SessionReply) × Session
  | [] => ([], s)
  | c :: rest =>
    let (reply, s) := s.call c
    let (replies, s) := s.run rest
    (reply :: replies, s)

end Session

end SmartCard
