import SmartCard.Apdu.LogicalChannel
import SmartCard.Apdu.StatusWord
import SmartCard.Messaging.Error
import SmartCard.Transport

/-! Faults of a card and its channels, and their texts. -/

namespace SmartCard

/-- The uses of MANAGE CHANNEL. -/
inductive ChannelRequest
  | openChannel
  | closeChannel
  | resetChannels
  deriving DecidableEq, Repr

/-- Why the answer to a request for a channel names no usable channel. -/
inductive AssignmentFault
  | noNumber
  | basicChannel
  deriving DecidableEq, Repr

inductive CardError
  | apdu (e : ApduError)
  | messaging (e : MessagingError)
  | transport (e : TransportError)
  | channelClosed (n : LogicalChannel)
  | basicChannelClose
  | notConnected
  | refused (request : ChannelRequest) (status : StatusWord)
  | badAssignment (fault : AssignmentFault)
  /-- No channel was opened under this handle. -/
  | unknownHandle (handle : Nat)
  deriving DecidableEq, Repr

def ChannelRequest.name : ChannelRequest → String
  | openChannel => "MANAGE CHANNEL open"
  | closeChannel => "MANAGE CHANNEL close"
  | resetChannels => "MANAGE CHANNEL reset"

def AssignmentFault.message : AssignmentFault → String
  | noNumber => "MANAGE CHANNEL open returned no channel number"
  | basicChannel => "card assigned the basic channel"

def CardError.message : CardError → String
  | apdu e => e.message
  | messaging e => e.message
  | transport e => e.message
  | channelClosed n => "Logical channel " ++ n.display ++ " is closed"
  | basicChannelClose => "The basic channel cannot be closed"
  | notConnected => "Card not connected"
  | refused request status => request.name ++ " failed with status " ++ status.display
  | badAssignment fault => "Invalid response: " ++ fault.message
  | unknownHandle handle => toString handle

end SmartCard
