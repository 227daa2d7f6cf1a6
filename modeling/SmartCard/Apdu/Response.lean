import SmartCard.Apdu.Error
import SmartCard.Apdu.StatusWord

/-! Response APDUs: a payload, empty if there is none, then the status word. -/

namespace SmartCard

structure Response where
  payload : Bytes
  status : StatusWord
  deriving DecidableEq, Repr

namespace Response

def isSuccess (r : Response) : Bool := r.status.isSuccess

def encode (r : Response) : Bytes := r.payload ++ r.status.toBytes

def parse (bytes : Bytes) : Except ApduError Response :=
  match bytes.drop (bytes.length - 2) with
  | [sw1, sw2] => .ok ⟨bytes.take (bytes.length - 2), ⟨sw1, sw2⟩⟩
  | _ => .error (.responseLength bytes.length)

/-- The payload in hexadecimal, if there is one, then the status. -/
def display (r : Response) : String :=
  if r.payload.isEmpty then r.status.display
  else Hex.print r.payload ++ " " ++ r.status.display

end Response

end SmartCard
