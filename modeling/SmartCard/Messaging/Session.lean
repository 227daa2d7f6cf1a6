import SmartCard.Apdu.Parsing
import SmartCard.Messaging.Protection

/-!
A secure messaging session: keys, and a counter that every call steps first, whether the call then
succeeds or fails.
-/

namespace SmartCard

structure Session where
  keys : SessionKeys
  counter : Counter
  deriving DecidableEq

namespace Session

def start (keys : SessionKeys) : Session := ⟨keys, .zero⟩

def step (s : Session) : Session := { s with counter := s.counter.next }

def encrypt (s : Session) (c : Command) : Except MessagingError Command × Session :=
  let s := s.step
  ((s.keys.protect s.counter c).mapError .malformed, s)

/-- The wire form of the protected command, from the bytes of the plain one. -/
def encryptBytes (s : Session) (bytes : Bytes) : Except MessagingError Bytes × Session :=
  match Command.parse bytes with
  | .error _ => (.error (.malformed .notACommand), s.step)
  | .ok c =>
    match s.encrypt c with
    | (.error e, s) => (.error e, s)
    | (.ok c, s) => (c.encode.mapError fun _ => .malformed .notEncodable, s)

def decrypt (s : Session) (bytes : Bytes) : Except MessagingError Response × Session :=
  let s := s.step
  (s.keys.unprotect s.counter bytes, s)

/-- Decrypt a response that was split into payload and status before. -/
def decryptResponse (s : Session) (r : Response) : Except MessagingError Response × Session :=
  s.decrypt r.encode

end Session

end SmartCard
