import SmartCard.Card.Run
import SmartCard.Cipher.Inverse
import SmartCard.Main
import SmartCard.Messaging.Calls
import SmartCard.Proofs.Apdu.RoundTrip
import SmartCard.Proofs.Bytes
import SmartCard.Transport.Recorder
import SmartCard.Transport.Script
import SmartCard.Proofs.Messaging.Cryptogram
import SmartCard.Proofs.Messaging.ObjectGrammar
import SmartCard.Proofs.Messaging.ResponseForm
import SmartCard.Proofs.Messaging.Verdict
import SmartCard.Proofs.Messaging.Concealment
import SmartCard.Proofs.Messaging.CommandForm
import SmartCard.Proofs.Messaging.Receipt
import SmartCard.Proofs.Messaging.SessionRun
import SmartCard.Proofs.Card.Alternation
import SmartCard.Proofs.Card.Calls
import SmartCard.Proofs.Card.Effect
import SmartCard.Proofs.Card.Lockstep
import SmartCard.Proofs.Card.Reach
import SmartCard.Proofs.Card.Secured
import SmartCard.Proofs.Card.CounterUse
import SmartCard.Proofs.Card.Closing
import SmartCard.Proofs.Apdu.Layout
import SmartCard.Proofs.Apdu.Canonical
import SmartCard.Proofs.Apdu.Response
import SmartCard.Proofs.Card.Footprint
import SmartCard.Proofs.Hex
import SmartCard.Proofs.Tool.Words
import SmartCard.Proofs.Tool.Routes
import SmartCard.Proofs.Tool.Resumption
import SmartCard.Proofs.Messaging.Capacity
import SmartCard.Proofs.Card.LiveHandles
import SmartCard.Proofs.Messaging.Authentication
import SmartCard.Proofs.Messaging.Inversion
import SmartCard.Proofs.Card.Disconnect
import SmartCard.Proofs.Card.Opening
import SmartCard.Proofs.Messaging.ObjectFaults
import SmartCard.Proofs.Messaging.ObjectStream
import SmartCard.Proofs.Tool.Transparency
