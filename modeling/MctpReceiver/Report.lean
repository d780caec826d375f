import MctpReceiver.Assembly.Message
import MctpReceiver.Delivery.Dispatcher
import MctpReceiver.Packet.Decode

/-!
# Reports

For every frame a receiver reports what became of it.
-/

namespace MctpReceiver

/-- A message completed by a fragment, and what became of it. -/
structure Reassembled where
  message : Message
  dispatch : DispatchOutcome
  deriving DecidableEq, Repr

/-- What became of a frame. -/
inductive Report where
  /-- The frame is not a packet and was skipped. -/
  | rejected (error : DecodeError)
  | message (header : Header) (dispatch : DispatchOutcome)
  /-- The frame holds a fragment, which may have completed a message. -/
  | fragment (header : Header) (anomalies : List Anomaly) (reassembled : Option Reassembled)
  deriving DecidableEq, Repr

namespace Report

/-- The header of the frame, if it could be read. -/
def header? : Report → Option Header
  | rejected _ => none
  | message header _ | fragment header _ _ => some header

/-- What became of the message that the frame holds or completes. -/
def dispatch? : Report → Option DispatchOutcome
  | rejected _ => none
  | message _ dispatch => some dispatch
  | fragment _ _ reassembled => reassembled.map (·.dispatch)

def anomalies : Report → List Anomaly
  | rejected _ | message _ _ => []
  | fragment _ anomalies _ => anomalies

/-- One line for reading. A fragment that ends a message is called reassembled whether or not the
message could be put together. -/
instance : ToString Report where
  toString
    | rejected (.tooShort length) => s!"Bogus length {length}, minimum {Header.minFrameLength}"
    | rejected (.unsupportedVersion version) => s!"Invalid version {version.toNat}"
    | message _ _ => "MCTP message"
    | fragment header _ _ =>
      if header.eom then "MCTP message reassembled"
      else s!"MCTP message frag {header.sequence.toNat}"

end Report

end MctpReceiver
