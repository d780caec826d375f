import MctpReceiver.Assembly.PartialMessage
import MctpReceiver.MessageType

/-!
# Assembled messages
-/

namespace MctpReceiver

/-- A message put together from its fragments. -/
structure Message where
  flow : Flow
  /-- The payloads of the fragments, put together; the first byte tells the message type. -/
  payload : List UInt8
  startFrame : FrameId
  completedIn : FrameId
  /-- The frames of the fragments, in message order. -/
  frames : List FrameId
  /-- A fragment was repeated with another payload; the one observed first counts. -/
  conflicted : Bool
  deriving DecidableEq, Repr

namespace Message

def length (m : Message) : Nat := m.payload.length

def isEmpty (m : Message) : Bool := m.payload.isEmpty

def fragmentCount (m : Message) : Nat := m.frames.length

def type? (m : Message) : Option MessageType := m.payload.head?.map .ofTypeByte

end Message

/-- The message of a flow that the fragments make up, completed in a frame. -/
def PartialMessage.assemble (m : PartialMessage) (flow : Flow) (completedIn : FrameId) : Message where
  flow
  payload := m.payload
  startFrame := m.startFrame.getD completedIn
  completedIn
  frames := m.frames
  conflicted := m.conflicted

end MctpReceiver
