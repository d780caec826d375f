import MctpReceiver.Assembly.Fragment

/-!
# Messages being assembled

A partial message keeps the fragments of one flow in the order of their arrival, at least one of
them, beside a running summary of what they amount to. `PartialMessage.start` begins one and
`PartialMessage.insert` takes in the next fragment. Sequence numbers only serve to recognise a
repetition of the latest fragment and to count what was lost before the next.
-/

namespace MctpReceiver

/-- The fragments of one message so far. -/
structure PartialMessage where
  latest : Fragment
  /-- The fragments before the latest, newest first. -/
  earlier : List Fragment
  /-- The number of fragments lost in between, judged by the sequence numbers. -/
  missing : Nat
  /-- An end of message was kept. -/
  hasTail : Bool
  /-- The frame of the start of the message, if the fragments begin with one. -/
  startFrame : Option FrameId
  /-- The frame of the fragment that arrived last, whether it was kept or not. -/
  lastFrame : FrameId
  /-- The fragments do not begin with a start of message. -/
  orphan : Bool
  /-- A fragment was repeated with another payload. -/
  conflicted : Bool
  deriving DecidableEq, Repr

/-- Whether the fragments kept so far make up a message. -/
inductive Completion where
  /-- They run from its start to its end, and none is missing. -/
  | ready
  /-- The end is there, but so many are missing, or, with `none`, the start. -/
  | incomplete (missing : Option Nat)
  | unended
  deriving DecidableEq, Repr

/-- What becomes of a fragment in a partial message. -/
structure Insertion where
  result : PartialMessage
  anomalies : List Anomaly
  kept : Bool
  deriving DecidableEq, Repr

namespace PartialMessage

/-! ## Views -/

def fragments (m : PartialMessage) : List Fragment := (m.latest :: m.earlier).reverse

def count (m : PartialMessage) : Nat := m.earlier.length + 1

/-- The frames of the fragments, in the order of their arrival. -/
def frames (m : PartialMessage) : List FrameId := m.fragments.map (·.frame)

def payload (m : PartialMessage) : List UInt8 := m.fragments.flatMap (·.payload)

def length (m : PartialMessage) : Nat := m.fragments.foldr (·.payload.length + ·) 0

/-! ## Changes -/

def start (f : Fragment) : PartialMessage where
  latest := f
  earlier := []
  missing := 0
  hasTail := f.header.eom
  startFrame := if f.header.som then some f.frame else none
  lastFrame := f.frame
  orphan := !f.header.som
  conflicted := false

/-- The partial message with a fragment at its end. -/
def append (m : PartialMessage) (f : Fragment) : PartialMessage :=
  { m with
    latest := f
    earlier := m.latest :: m.earlier
    missing := m.missing + m.latest.lostBefore f
    hasTail := m.hasTail || f.header.eom
    lastFrame := f.frame }

/-- Takes in the next fragment. A repetition of the latest fragment is dropped, and so the first copy
is kept. A start of message abandons all that came before it. After an end of message only another
end is kept. -/
def insert (m : PartialMessage) (f : Fragment) : Insertion :=
  if f.repeats m.latest then
    if f.payload = m.latest.payload then ⟨{ m with lastFrame := f.frame }, [.overlap], false⟩
    else ⟨{ m with lastFrame := f.frame, conflicted := true }, [.overlapConflict], false⟩
  else if f.header.som then ⟨start f, [], true⟩
  else if m.hasTail then
    if f.header.eom then ⟨m.append f, [.multipleTails], true⟩
    else ⟨{ m with lastFrame := f.frame }, [.tooLongFragment], false⟩
  else ⟨m.append f, [], true⟩

/-- Begins a partial message with the next fragment of an idle flow. -/
def begin (f : Fragment) : Insertion :=
  ⟨start f, if f.header.som then [] else [.orphanFragment], true⟩

def completion (m : PartialMessage) : Completion :=
  if !m.hasTail then .unended
  else if m.startFrame.isNone then .incomplete none
  else if m.missing > 0 then .incomplete (some m.missing)
  else .ready

/-! ## The views after a change -/

@[simp] theorem fragments_start (f : Fragment) : (start f).fragments = [f] := rfl

@[simp] theorem fragments_append (m : PartialMessage) (f : Fragment) :
    (m.append f).fragments = m.fragments ++ [f] := by
  simp [fragments, append]

theorem payload_append (m : PartialMessage) (f : Fragment) :
    (m.append f).payload = m.payload ++ f.payload := by
  simp [payload]

theorem length_fragments (m : PartialMessage) : m.fragments.length = m.count := by
  simp [fragments, count]

theorem length_payload (m : PartialMessage) : m.payload.length = m.length := by
  unfold payload length
  induction m.fragments with
  | nil => rfl
  | cons f fs ih => rw [List.flatMap_cons, List.length_append, ih, List.foldr_cons]

end PartialMessage

end MctpReceiver
