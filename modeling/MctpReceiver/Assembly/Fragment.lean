import MctpReceiver.Packet

/-!
# Fragments

A fragment is a packet together with the frame in which it was observed. What identifies its place
in a message is its sequence number and its two flags. What is irregular about it in the message being
assembled is an anomaly, which is reported and stops nothing.
-/

namespace MctpReceiver

/-- The number of an observed frame, given by whoever observes it. -/
abbrev FrameId := UInt64

structure Fragment where
  header : Header
  payload : List UInt8
  frame : FrameId
  deriving DecidableEq, Repr

/-- The packet as observed in a frame. -/
def Packet.observedIn (p : Packet) (frame : FrameId) : Fragment := ⟨p.header, p.payload, frame⟩

namespace Fragment

/-- The fragment claims the same place in a message as another: it has the same sequence number and
flags. -/
def repeats (f g : Fragment) : Bool :=
  f.header.sequence == g.header.sequence && f.header.som == g.header.som &&
    f.header.eom == g.header.eom

/-- The number of fragments lost between two that are observed one after the other. A sequence
number that stands still or goes on by one leaves no gap. -/
def lostBefore (f g : Fragment) : Nat := f.header.sequence.distanceTo g.header.sequence - 1

@[simp] theorem repeats_self (f : Fragment) : f.repeats f = true := by simp [repeats]

theorem repeats_comm (f g : Fragment) : f.repeats g = g.repeats f := by
  simp only [repeats, Bool.beq_comm]

end Fragment

/-! ## Anomalies -/

/-- An irregularity that a fragment reveals. -/
inductive Anomaly where
  /-- Nothing is being assembled, and the fragment does not start a message. -/
  | orphanFragment
  | overlap
  /-- The fragment repeats the latest one with another payload; the one observed first is kept. -/
  | overlapConflict
  /-- The fragment ends a message that has an end already. -/
  | multipleTails
  /-- The fragment lies beyond the end of the message. -/
  | tooLongFragment
  /-- The fragment ends a message that cannot be assembled: so many fragments are missing, or, with
  `none`, its start was never observed. -/
  | desegmentationError (missing : Option Nat)
  deriving DecidableEq, Repr

def Anomaly.message : Anomaly → String
  | .orphanFragment => "fragment received without a preceding start of message"
  | .overlap => "message fragment overlap"
  | .overlapConflict => "message fragment overlapping with conflicting data"
  | .multipleTails => "message has multiple tail fragments"
  | .tooLongFragment => "message fragment too long"
  | .desegmentationError (some n) => s!"message defragmentation error: {n} fragment(s) missing"
  | .desegmentationError none => "message defragmentation error: start of message not seen"

end MctpReceiver
