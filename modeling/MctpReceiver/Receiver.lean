import MctpReceiver.Assembly.Reassembler
import MctpReceiver.Report
import MctpReceiver.Settings

/-!
# The receiver

A receiver takes the frames of one capture in the order in which they were observed. It reads each
frame, puts fragments together, hands every complete message to its dispatcher once, and reports
what became of the frame.
-/

namespace MctpReceiver

/-- What a receiver keeps from one frame to the next. -/
structure Receiver (δ : Type) where
  dispatcher : δ
  settings : Settings := {}
  reassembler : Reassembler := ∅

namespace Receiver

variable {δ : Type} [Dispatcher δ]

/-- Takes the packet of a frame. With reassembly switched off, a fragment is only reported. -/
def receivePacket (r : Receiver δ) (packet : Packet) (frame : FrameId) (link : Link) :
    Report × Receiver δ :=
  let header := packet.header
  if header.isFragment && !r.settings.reassemble then (.fragment header [] none, r)
  else
    let (ingestion, reassembler) := r.reassembler.ingest packet.flow (packet.observedIn frame)
    let r := { r with reassembler }
    let deliver (message : List UInt8) : DispatchOutcome × Receiver δ :=
      let (dispatch, dispatcher) :=
        Dispatcher.deliver r.dispatcher message frame (packet.flow.origin link)
      (dispatch, { r with dispatcher })
    match ingestion.outcome with
    | .single message =>
      let (dispatch, r) := deliver message
      (.message header dispatch, r)
    | .completed message =>
      let (dispatch, r) := deliver message.payload
      (.fragment header ingestion.anomalies (some ⟨message, dispatch⟩), r)
    | .buffered => (.fragment header ingestion.anomalies none, r)

/-- Takes the next frame. One that is not a packet is reported and changes nothing. -/
def receive (r : Receiver δ) (frame : List UInt8) (id : FrameId) (link : Link) :
    Report × Receiver δ :=
  match Packet.ofFrame frame with
  | .error e => (.rejected e, r)
  | .ok packet => r.receivePacket packet id link

end Receiver

end MctpReceiver
