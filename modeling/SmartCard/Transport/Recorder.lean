import SmartCard.Transport

/-! A device that passes everything on to another and keeps what it was asked to do. -/

namespace SmartCard

structure Recorder (σ : Type) where
  device : σ
  /-- The command bytes sent, in order. -/
  sent : List Bytes := []
  resets : Nat := 0

namespace Recorder

variable {σ : Type} [Transport σ]

instance : Transport (Recorder σ) where
  isConnected r := Transport.isConnected r.device
  transmit r command :=
    let (answer, device) := Transport.transmit r.device command
    (answer, { r with device, sent := r.sent ++ [command] })
  reset r :=
    let (answer, device) := Transport.reset r.device
    (answer, { r with device, resets := r.resets + 1 })

end Recorder

end SmartCard
