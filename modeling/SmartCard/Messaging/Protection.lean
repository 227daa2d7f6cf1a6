import SmartCard.Apdu.Response
import SmartCard.Messaging.Counter
import SmartCard.Messaging.Cryptogram
import SmartCard.Messaging.DataObject
import SmartCard.Messaging.Keys
import SmartCard.Messaging.Mac

/-!
Protected commands and responses at a given counter value.

A protected command carries its data encrypted, its expected length, and a MAC over the header and
these objects. A protected response carries data, a status and a MAC over these objects; the status
word after them is not authenticated and not used.
-/

namespace SmartCard

/-- The class bits that mark a command as protected, with an authenticated header. -/
def protectedClassBits : UInt8 := 0x0C

def Command.isProtected (c : Command) : Bool :=
  c.cla &&& protectedClassBits = protectedClassBits

/-- The byte before a cryptogram that names its padding. -/
def paddingIndicator : UInt8 := 0x01

namespace SessionKeys

/-! ## Commands -/

/-- The header that a protected command has on the wire. -/
def protectedHeader (c : Command) : Bytes :=
  { c with cla := c.cla ||| protectedClassBits }.header

/-- The encrypted data of a command, absent if it has none. -/
def dataObject (keys : SessionKeys) (n : Counter) (body : Bytes) : List DataObject :=
  if body.isEmpty then []
  else [⟨.encryptedData, paddingIndicator :: Cryptogram.encrypt keys.enc n.block body⟩]

def macObject (keys : SessionKeys) (n : Counter) (parts : List Bytes) : DataObject :=
  ⟨.mac, Mac.compute keys.mac n.block parts⟩

/-- The expected length that a protected command has on the wire, the largest of its form. -/
def wireExpectedLength (le : Option Nat) (body : Bytes) : Nat :=
  if le.any (Command.maxShortExpected < ·) || Command.maxShortData < body.length then
    Command.maxExtendedExpected
  else Command.maxShortExpected

/-- The protected form of a command, with `expected` for the object of its expected length. -/
def assemble (keys : SessionKeys) (n : Counter) (c : Command) (expected : List DataObject) :
    Except Malformation Command :=
  let objects := DataObject.encodeAll (keys.dataObject n c.body ++ expected)
  let body := objects ++ (keys.macObject n [protectedHeader c, objects]).encode
  if Command.maxExtendedData < body.length then .error .bodyTooLong
  else .ok
    { c with
      cla := c.cla ||| protectedClassBits
      data := some body
      le := some (wireExpectedLength c.le body) }

def protect (keys : SessionKeys) (n : Counter) (c : Command) : Except Malformation Command :=
  if c.isProtected then .error .alreadyProtected
  else match c.le with
    | none => keys.assemble n c []
    | some le =>
      match DataObject.ofExpectedLength le with
      | .error e => .error e
      | .ok expected => keys.assemble n c [expected]

end SessionKeys

/-! ## Responses -/

/-- A protected response taken apart, nothing in it checked against a key yet. -/
structure ProtectedResponse where
  data : Option DataObject
  status : StatusWord
  /-- The received bytes of the data and status objects. -/
  authenticated : Bytes
  mac : Bytes
  deriving DecidableEq, Repr

namespace ProtectedResponse

/-- A status object, a MAC object and the trailing status word. -/
def minLength : Nat := 12

/-- Read the data object, if the first tag announces one. -/
def readData (bytes : Bytes) : Except Malformation (Option DataObject × Bytes) :=
  match bytes.head?.bind Tag.ofByte? with
  | some .plainData | some .encryptedData =>
    (DataObject.decode bytes).map fun (o, rest) => (some o, rest)
  | _ => .ok (none, bytes)

def readStatus (bytes : Bytes) : Except Malformation (StatusWord × Bytes) :=
  match DataObject.decode bytes with
  | .error e => .error e
  | .ok (⟨.status, [sw1, sw2]⟩, rest) => .ok (⟨sw1, sw2⟩, rest)
  | .ok (⟨.status, _⟩, _) => .error .statusObjectLength
  | .ok _ => .error .missingStatusObject

def readMac (bytes : Bytes) : Except Malformation (Bytes × Bytes) :=
  match DataObject.decode bytes with
  | .error e => .error e
  | .ok (⟨.mac, value⟩, rest) =>
    if value.length = Mac.macLength then .ok (value, rest) else .error .macObjectLength
  | .ok _ => .error .missingMacObject

def parse (bytes : Bytes) : Except Malformation ProtectedResponse := do
  if bytes.length < minLength then throw .responseTooShort
  let (data, afterData) ← readData bytes
  let (status, afterStatus) ← readStatus afterData
  let (mac, trailer) ← readMac afterStatus
  if trailer.length ≠ 2 then throw .missingTrailingStatus
  return { data, status, authenticated := bytes.take (bytes.length - afterStatus.length), mac }

def isAuthentic (r : ProtectedResponse) (key : Cipher.Key) (n : Counter) : Bool :=
  Mac.verify (Mac.compute key n.block [r.authenticated]) r.mac

/-- The plain payload. An encrypted one has to name the padding in use. -/
def payload (r : ProtectedResponse) (key : Cipher.Key) (n : Counter) :
    Except MessagingError Bytes :=
  match r.data with
  | some ⟨.encryptedData, indicator :: cryptogram⟩ =>
    if indicator = paddingIndicator then Cryptogram.decrypt key n.block cryptogram
    else .error (.malformed .unsupportedPaddingIndicator)
  | some ⟨.encryptedData, []⟩ => .error (.malformed .unsupportedPaddingIndicator)
  | some ⟨_, value⟩ => .ok value
  | none => .ok []

end ProtectedResponse

/-- The plain response. Nothing is decrypted unless the MAC is the expected one. -/
def SessionKeys.unprotect (keys : SessionKeys) (n : Counter) (bytes : Bytes) :
    Except MessagingError Response :=
  match ProtectedResponse.parse bytes with
  | .error e => .error (.malformed e)
  | .ok r =>
    if r.isAuthentic keys.mac n then (r.payload keys.enc n).map (⟨·, r.status⟩)
    else .error .integrity

end SmartCard
