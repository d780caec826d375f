import MctpReceiver.Assembly.Fragment
import MctpReceiver.MessageType

/-!
# Delivery of complete messages

A complete message is handed to a dispatcher once: its type, read from the first byte, the rest of
it, and where it came from. The dispatcher tells whether it claims the message. A message without a
first byte is not handed on.
-/

namespace MctpReceiver

/-- The link on which a frame was observed, as far as it is known. -/
structure Link where
  interfaceIndex : Option UInt32 := none
  /-- The address of the peer on the link. -/
  hardwareAddress : Option (List UInt8) := none
  deriving DecidableEq, Repr, Inhabited

/-- Where a message came from. -/
structure Origin where
  flow : Flow
  /-- The port numbers of the flow. -/
  ports : Ends (BitVec 4)
  /-- The link of the frame that completed the message. -/
  link : Link
  deriving DecidableEq, Repr

/-- The origin of a message that was received on a flow. -/
def Flow.origin (flow : Flow) (link : Link) : Origin := ⟨flow, flow.ports, link⟩

structure Delivery where
  type : MessageType
  /-- The message without the byte that tells its type. -/
  payload : List UInt8
  frame : FrameId
  origin : Origin
  deriving DecidableEq, Repr

/-- The delivery of a message; there is none for a message without bytes. -/
def Delivery.ofMessage? (message : List UInt8) (frame : FrameId) (origin : Origin) :
    Option Delivery :=
  match message with
  | [] => none
  | byte :: payload => some ⟨.ofTypeByte byte, payload, frame, origin⟩

/-- Takes complete messages, one after the other, and tells of each whether it is claimed. -/
class Dispatcher (δ : Type) where
  dispatch : δ → Delivery → Bool × δ

/-- What became of a complete message. -/
inductive DispatchOutcome where
  | handled (type : MessageType)
  /-- The message is not looked into any further. -/
  | unrecognized (type : MessageType)
  /-- The message has no byte that tells its type. -/
  | empty
  deriving DecidableEq, Repr

/-- Hands a message, given with the byte that tells its type, to a dispatcher. -/
def Dispatcher.deliver {δ : Type} [Dispatcher δ] (d : δ) (message : List UInt8) (frame : FrameId)
    (origin : Origin) : DispatchOutcome × δ :=
  match Delivery.ofMessage? message frame origin with
  | none => (.empty, d)
  | some delivery =>
    match dispatch d delivery with
    | (true, d) => (.handled delivery.type, d)
    | (false, d) => (.unrecognized delivery.type, d)

/-! ## Recording deliveries -/

/-- A dispatcher that keeps every delivery and claims the message types it was told to: the deliveries
so far, and the codes of those types. -/
structure Recorder where
  claimed : List UInt8 := []
  deliveries : Array Delivery := #[]
  deriving DecidableEq, Repr, Inhabited

/-- Keeps the delivery, claimed or not. -/
instance : Dispatcher Recorder where
  dispatch r delivery :=
    (r.claimed.contains delivery.type.code, { r with deliveries := r.deliveries.push delivery })

end MctpReceiver
