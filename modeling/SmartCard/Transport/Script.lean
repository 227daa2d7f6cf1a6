import SmartCard.Transport

/-! A device that plays back a list of answers, whatever it is sent. -/

namespace SmartCard

structure ScriptEntry where
  answer : Except TransportError Bytes
  /-- Whether the device is gone once it has answered. -/
  disconnects : Bool := false

structure ScriptedDevice where
  script : List ScriptEntry
  connected : Bool := true
  resetError : Option TransportError := none

namespace ScriptedDevice

/-- The next answer of the script. Once it has ended, transmission fails. -/
def play (d : ScriptedDevice) : Except TransportError Bytes × ScriptedDevice :=
  match d.script with
  | [] => (.error .transmission, d)
  | entry :: rest =>
    (entry.answer, { d with script := rest, connected := d.connected && !entry.disconnects })

instance : Transport ScriptedDevice where
  isConnected := connected
  transmit d _ := d.play
  reset d :=
    match d.resetError with
    | some e => (.error e, d)
    | none => (.ok (), d)

end ScriptedDevice

end SmartCard
