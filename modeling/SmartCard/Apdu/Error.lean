/-! Faults of command and response structure. -/

namespace SmartCard

inductive ApduError
  | commandLength (length : Nat)
  | responseLength (length : Nat)
  | dataLength (length : Nat)
  | expectedLength (length : Nat)
  | channelNumber (number : UInt8)
  deriving DecidableEq, Repr

def ApduError.message : ApduError → String
  | commandLength n => "Invalid command length: " ++ toString n
  | responseLength n => "Invalid response length: " ++ toString n
  | dataLength n => "Invalid command data length: " ++ toString n
  | expectedLength n => "Invalid expected length: " ++ toString n
  | channelNumber n => "Invalid logical channel: " ++ toString n.toNat

end SmartCard
