import MctpReceiver.Header

/-!
# Cutting messages into frames

The sending side: a message is cut into pieces of one size, the last perhaps shorter, and each is
labelled with its place in the message. The labels are put together here on bytes, not through the
header type, so that the two can be held against each other.
-/

namespace MctpReceiver

/-- Pieces of `size` elements, the last perhaps shorter; none if `size` is zero. -/
def piecesOf {α : Type} (size : Nat) (l : List α) : List (List α) :=
  if _h : size = 0 ∨ l.length = 0 then []
  else l.take size :: piecesOf size (l.drop size)
termination_by l.length
decreasing_by simp only [List.length_drop]; omega

namespace Frame

/-- A flags byte: of the sequence number the low two bits count, of the tag the low four. -/
def packFlags (som eom : Bool) (sequence tag : UInt8) : UInt8 :=
  (sequence &&& 0x03) <<< 4 ||| tag &&& 0x0f |||
    (if som then 0x80 else 0) ||| (if eom then 0x40 else 0)

/-- The flags byte of a packet at a place in its message. A message in one packet starts its
numbering at zero. -/
def flagsAt (sequence tag : UInt8) : Position → UInt8
  | .single => packFlags true true 0 tag
  | .first => packFlags true false sequence tag
  | .middle => packFlags false false sequence tag
  | .last => packFlags false true sequence tag

def build (endpoints : Ends EndpointId) (flags : UInt8) (payload : List UInt8) : List UInt8 :=
  0x01 :: endpoints.destination :: endpoints.source :: flags :: payload

end Frame

inductive FragmentationError where
  /-- Pieces of no bytes would never carry the message. -/
  | emptyPieces
  deriving DecidableEq, Repr

def FragmentationError.message : FragmentationError → String
  | .emptyPieces => "fragments must carry data"

/-- How the frames of a message are labelled. -/
structure Labelling where
  endpoints : Ends EndpointId
  /-- The low four bits are the tag. -/
  tag : UInt8
  /-- The number of the first frame; those after it count on, and the low two bits are sent. -/
  firstSequence : UInt8
  deriving DecidableEq, Repr

namespace Labelling

/-- The frame of piece `i` out of `count`. -/
def frame (l : Labelling) (count i : Nat) (piece : List UInt8) : List UInt8 :=
  Frame.build l.endpoints
    (Frame.packFlags (i == 0) (i + 1 == count) (l.firstSequence + UInt8.ofNat i) l.tag) piece

/-- The frames of a message, each with at most `size` bytes of it. A message that fits in one frame
has both ends of the message there. -/
def split (l : Labelling) (size : Nat) (message : List UInt8) :
    Except FragmentationError (List (List UInt8)) :=
  if size = 0 then .error .emptyPieces
  else
    let pieces := piecesOf size message
    .ok (pieces.mapIdx (l.frame pieces.length))

end Labelling

end MctpReceiver
