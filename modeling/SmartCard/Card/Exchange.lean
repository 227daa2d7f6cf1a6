import SmartCard.Apdu.Response
import SmartCard.Card.Error
import SmartCard.Messaging.Session

/-! One command and its answer over a transport, in the clear or within a session. -/

namespace SmartCard.Exchange

variable {σ : Type} [Transport σ]

/-- Nothing is sent if the command has no wire form. -/
def plain (device : σ) (c : Command) : Except CardError Response × σ :=
  match c.encode with
  | .error e => (.error (.apdu e), device)
  | .ok wire =>
    match Transport.transmit device wire with
    | (.error e, device) => (.error (.transport e), device)
    | (.ok answer, device) => ((Response.parse answer).mapError .apdu, device)

/-- The session steps once for the command, and once more if an answer comes back. -/
def secured (session : Session) (device : σ) (c : Command) :
    Except CardError Response × Session × σ :=
  match session.encrypt c with
  | (.error e, session) => (.error (.messaging e), session, device)
  | (.ok wrapped, session) =>
    match wrapped.encode with
    | .error e => (.error (.apdu e), session, device)
    | .ok wire =>
      match Transport.transmit device wire with
      | (.error e, device) => (.error (.transport e), session, device)
      | (.ok answer, device) =>
        let (result, session) := session.decrypt answer
        (result.mapError .messaging, session, device)

end SmartCard.Exchange
