import MctpReceiver.Buffer
import MctpReceiver.Packet

/-!
# Writing packets

A packet is written whole or not at all: if it does not fit, nothing is put into the sink. A writer that
puts in more than there is room for stops with a fault, and this never happens to a header or a packet,
since the room is seen to before.
-/

namespace MctpReceiver

open BufferM ByteSink

inductive EncodeError where
  | insufficientRoom
  deriving DecidableEq, Repr

def EncodeError.message : EncodeError → String
  | .insufficientRoom => "the provided buffer did not have sufficient size"

/-- Writes to a sink, or stops with the sink as it then is. -/
abbrev Encoder (σ : Type) := BufferM EncodeError σ

namespace Encoder

/-- What an encoder writes to an empty buffer that grows as needed. -/
def bytes (e : Encoder ByteBuffer Unit) : Except (Stop EncodeError) (List UInt8) :=
  match e {} with
  | .ok _ buffer => .ok buffer.written
  | .error e _ => .error e

variable {σ : Type} [ByteSink σ]

/-- Refuses unless there is room for `n` more bytes. -/
def reserve (n : Nat) : Encoder σ Unit := do
  unless accepts (← get) n do
    throw (.refused .insufficientRoom)

/-- Puts bytes into the sink. -/
def put (bytes : List UInt8) : Encoder σ Unit := do
  let sink ← get
  unless accepts sink bytes.length do
    throw .overrun
  set (ByteSink.put sink bytes)

theorem reserve_eq (n : Nat) (s : σ) :
    reserve n s = if accepts s n then .ok () s else .error (.refused .insufficientRoom) s := by
  cases h : accepts s n <;>
    simp [reserve, bind, EStateM.bind, get_eq, h, throw_eq, pure_eq]

theorem put_eq {bytes : List UInt8} {s : σ} (h : accepts s bytes.length = true) :
    put bytes s = .ok () (ByteSink.put s bytes) := by
  simp [put, bind, EStateM.bind, get_eq, h, set_eq]

end Encoder

variable {σ : Type} [ByteSink σ]

namespace Header

/-- The four bytes of a header; reserved bits are zero. -/
def bytes (h : Header) : List UInt8 :=
  [.ofBitVec (h.version.setWidth 8), h.endpoints.destination, h.endpoints.source, h.flags]

def encodeTo (h : Header) : Encoder σ Unit := do
  Encoder.reserve length
  Encoder.put h.bytes

def encode (h : Header) : Except (Stop EncodeError) (List UInt8) := Encoder.bytes h.encodeTo

@[simp] theorem length_bytes (h : Header) : h.bytes.length = length := rfl

theorem encodeTo_eq (h : Header) (s : σ) :
    h.encodeTo s =
      if accepts s length then .ok () (put s h.bytes)
      else .error (.refused .insufficientRoom) s := by
  cases ha : accepts s length
  · simp [encodeTo, bind, EStateM.bind, Encoder.reserve_eq, ha]
  · simp [encodeTo, bind, EStateM.bind, Encoder.reserve_eq, ha, Encoder.put_eq]

end Header

namespace Packet

def bytes (p : Packet) : List UInt8 := p.header.bytes ++ p.payload

def encodedLength (p : Packet) : Nat := Header.length + p.payload.length

/-- Writes the header and then the payload, once there is room for both. -/
def encodeTo (p : Packet) : Encoder σ Unit := do
  Encoder.reserve p.encodedLength
  p.header.encodeTo
  Encoder.put p.payload

def encode (p : Packet) : Except (Stop EncodeError) (List UInt8) := Encoder.bytes p.encodeTo

theorem length_bytes (p : Packet) : p.bytes.length = p.encodedLength := by
  simp [bytes, encodedLength]

/-- Once there is room for the whole, neither part is refused. -/
theorem encodeTo_eq (p : Packet) (s : σ) :
    p.encodeTo s =
      if accepts s p.encodedLength then .ok () (put (put s p.header.bytes) p.payload)
      else .error (.refused .insufficientRoom) s := by
  cases ha : accepts s p.encodedLength
  · simp [encodeTo, bind, EStateM.bind, Encoder.reserve_eq, ha]
  · have hheader : accepts s Header.length := accepts_of_le (Nat.le_add_right _ _) ha
    have hpayload : accepts (put s p.header.bytes) p.payload.length := accepts_put ha
    simp [encodeTo, bind, EStateM.bind, Encoder.reserve_eq, ha, Header.encodeTo_eq, hheader,
      Encoder.put_eq hpayload]

end Packet

end MctpReceiver
