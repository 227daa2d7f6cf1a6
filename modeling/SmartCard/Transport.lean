import SmartCard.Bytes

/-! What a card is reached through: any device that takes command bytes and answers them. -/

namespace SmartCard

inductive TransportError
  | connection
  | transmission
  | device
  | timeout
  | other (text : String)
  deriving DecidableEq, Repr

def TransportError.message : TransportError → String
  | connection => "Failed to connect to device"
  | transmission => "Failed to transmit data"
  | device => "Device error"
  | timeout => "Operation timed out"
  | other text => text

/-- A device whose state is a `σ`. Its answers may hang on everything sent before. -/
class Transport (σ : Type) where
  isConnected : σ → Bool
  transmit : σ → Bytes → Except TransportError Bytes × σ
  reset : σ → Except TransportError Unit × σ

end SmartCard
