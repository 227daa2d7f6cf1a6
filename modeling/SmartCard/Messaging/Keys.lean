import SmartCard.Cipher.Aes
import SmartCard.Messaging.Error

/-! The two AES keys of a secure messaging session. -/

namespace SmartCard

structure SessionKeys where
  enc : Cipher.Key
  mac : Cipher.Key
  deriving DecidableEq

namespace SessionKeys

/-- Keys from byte strings, the encryption key looked at first. -/
def ofBytes (enc mac : Bytes) : Except MessagingError SessionKeys :=
  match Cipher.Block.ofBytes? enc, Cipher.Block.ofBytes? mac with
  | none, _ => .error (.crypto .encryptionKeyLength)
  | some _, none => .error (.crypto .macKeyLength)
  | some enc, some mac => .ok ⟨enc, mac⟩

/-- A text that gives no key byte away. -/
def describe (_ : SessionKeys) : String :=
  "SessionKeys \x7b enc: \"<redacted>\", mac: \"<redacted>\" \x7d"

end SessionKeys

end SmartCard
