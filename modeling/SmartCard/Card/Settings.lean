/-! What a card's link carries, and which of its channels are secured. -/

namespace SmartCard

structure CardSettings where
  maxCommand : Nat := 261
  maxResponse : Nat := 261
  /-- Whether logical channels start a session of their own once the card holds keys. -/
  securesLogicalChannels : Bool := false
  deriving DecidableEq, Repr

/-- Extended length needs room beyond a short message in both directions. -/
def CardSettings.supportsExtended (settings : CardSettings) : Bool :=
  255 < settings.maxCommand && 255 < settings.maxResponse

end SmartCard
