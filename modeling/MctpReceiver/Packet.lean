import MctpReceiver.Header

/-!
# Flows and packets

A packet is a header and a payload, which is a piece of a message. The packets of one message share
their endpoints and their tag, owner bit included: that is their flow. The answer to a message travels
on another flow, with the ends exchanged and the owner bit flipped. Flows are ordered by source,
destination and tag.
-/

namespace MctpReceiver

/-! ## Flows -/

/-- What the packets of one message have in common. -/
structure Flow where
  endpoints : Ends EndpointId
  tag : Tag
  deriving DecidableEq, Repr, Inhabited

def Header.flow (h : Header) : Flow := ⟨h.endpoints, h.tag⟩

namespace Flow

/-- Port numbers drawn from the tag: the source's is the tag as sent, the destination's the tag
with which it answers. -/
def ports (f : Flow) : Ends (BitVec 4) := ⟨f.tag.flipOwner.bits, f.tag.bits⟩

/-- The flow on which the other end answers. -/
def reply (f : Flow) : Flow := ⟨f.endpoints.swap, f.tag.flipOwner⟩

instance : ToString Flow where
  toString f := s!"{f.endpoints.source} -> {f.endpoints.destination} tag {f.tag}"

/-- By source, then destination, then the four bits of the tag. -/
instance : Ord Flow where
  compare := compareLex (compareOn (·.endpoints.source))
    (compareLex (compareOn (·.endpoints.destination)) (compareOn (·.tag.bits)))

instance : Std.TransOrd Flow := inferInstanceAs (Std.TransCmp (compareLex _ _))

instance : Std.LawfulEqOrd Flow where
  eq_of_compare {f g} h := by
    obtain ⟨hs, h⟩ := compareLex_eq_eq.1 h
    obtain ⟨hd, ht⟩ := compareLex_eq_eq.1 h
    have hs := Std.LawfulEqOrd.eq_of_compare hs
    have hd := Std.LawfulEqOrd.eq_of_compare hd
    have ht := Tag.bits_injective (Std.LawfulEqOrd.eq_of_compare ht)
    rcases f with ⟨⟨_, _⟩, _⟩
    rcases g with ⟨⟨_, _⟩, _⟩
    simp_all

@[simp] theorem reply_reply (f : Flow) : f.reply.reply = f := by
  simp [reply]

theorem reply_ne (f : Flow) : f.reply ≠ f := by
  intro h
  have := congrArg (·.tag.owner) h
  simp [reply, Tag.flipOwner] at this

@[simp] theorem ports_reply (f : Flow) : f.reply.ports = f.ports.swap := by
  simp [reply, ports, Ends.swap]

end Flow

/-! ## Packets -/

/-- A packet: its header, and a piece of a message. -/
structure Packet where
  header : Header
  payload : List UInt8
  deriving DecidableEq, Repr

namespace Packet

/-- The flow of the message that the packet belongs to. -/
def flow (p : Packet) : Flow := p.header.flow

/-- The first byte of the payload, which tells the message type if the packet starts a message. -/
def typeByte? (p : Packet) : Option UInt8 := p.payload.head?

end Packet

end MctpReceiver
