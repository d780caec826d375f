import MctpReceiver.Assembly.Message
import Std.Data.ExtTreeMap

/-!
# Reassembly

A reassembler keeps a partial message for each flow that has one. Packets are taken in one at a
time, and each changes nothing but its own flow: `Reassembler.ingest` asks `ingestOne` what becomes
of that flow's partial message, and two reassemblers are equal if they keep the same partial message
for every flow. Incomplete messages stay until the owner discards them.
-/

namespace MctpReceiver

/-- What a packet led to. -/
inductive Outcome where
  /-- The message is still incomplete; the fragment was kept, or dropped for an anomaly. -/
  | buffered
  | completed (message : Message)
  /-- The packet holds a whole message by itself. -/
  | single (payload : List UInt8)
  deriving DecidableEq, Repr

/-- What a packet led to, and what was irregular about it. -/
structure Ingestion where
  outcome : Outcome
  anomalies : List Anomaly
  deriving DecidableEq, Repr

/-- What a kept or dropped fragment leads to, and the partial message that its flow then has. If the
fragment was kept and ends the message, the message is complete or the reason why not is told. -/
def Insertion.settle (i : Insertion) (flow : Flow) (f : Fragment) :
    Ingestion × Option PartialMessage :=
  if f.header.eom && i.kept then
    match i.result.completion with
    | .ready => (⟨.completed (i.result.assemble flow f.frame), i.anomalies⟩, none)
    | .incomplete missing =>
      (⟨.buffered, i.anomalies ++ [.desegmentationError missing]⟩, some i.result)
    | .unended => (⟨.buffered, i.anomalies⟩, some i.result)
  else (⟨.buffered, i.anomalies⟩, some i.result)

/-- What a packet leads to on a flow with the given partial message, if any, and the partial message
that the flow then has. A packet with a whole message passes it by. -/
def ingestOne (flow : Flow) (pending : Option PartialMessage) (f : Fragment) :
    Ingestion × Option PartialMessage :=
  if f.header.isFragment then
    let inserted := match pending with
      | none => PartialMessage.begin f
      | some m => m.insert f
    inserted.settle flow f
  else (⟨.single f.payload, []⟩, pending)

/-- The partial messages, by flow. -/
structure Reassembler where
  pending : Std.ExtTreeMap Flow PartialMessage

namespace Reassembler

def empty : Reassembler := ⟨∅⟩

instance : EmptyCollection Reassembler := ⟨empty⟩

instance : Inhabited Reassembler := ⟨empty⟩

/-! ## Observation -/

def get? (t : Reassembler) (flow : Flow) : Option PartialMessage := t.pending[flow]?

def contains (t : Reassembler) (flow : Flow) : Bool := t.pending.contains flow

def size (t : Reassembler) : Nat := t.pending.size

def isEmpty (t : Reassembler) : Bool := t.pending.isEmpty

/-- The flows with their partial messages, in the order of the flows. -/
def toList (t : Reassembler) : List (Flow × PartialMessage) := t.pending.toList

/-! ## Changes -/

/-- Takes in the next packet of a flow. -/
def ingest (t : Reassembler) (flow : Flow) (f : Fragment) : Ingestion × Reassembler :=
  let (ingestion, next) := ingestOne flow (t.get? flow) f
  (ingestion, ⟨t.pending.alter flow fun _ => next⟩)

/-- Discards the partial message of a flow, and returns it. -/
def remove (t : Reassembler) (flow : Flow) : Option PartialMessage × Reassembler :=
  (t.get? flow, ⟨t.pending.erase flow⟩)

def filter (t : Reassembler) (keep : Flow → PartialMessage → Bool) : Reassembler :=
  ⟨t.pending.filter keep⟩

/-! ## What is observed after a change -/

theorem ext_get? {s t : Reassembler} (h : ∀ flow, s.get? flow = t.get? flow) : s = t := by
  rcases s with ⟨s⟩
  rcases t with ⟨t⟩
  exact congrArg mk (Std.ExtTreeMap.ext_getElem? h)

@[simp] theorem get?_empty (flow : Flow) : empty.get? flow = none := by
  simp [get?, empty]

theorem get?_ingest (t : Reassembler) (flow other : Flow) (f : Fragment) :
    (t.ingest flow f).2.get? other =
      if flow = other then (ingestOne flow (t.get? flow) f).2 else t.get? other := by
  simp [get?, ingest, Std.ExtTreeMap.getElem?_alter]

theorem get?_remove (t : Reassembler) (flow other : Flow) :
    (t.remove flow).2.get? other = if flow = other then none else t.get? other := by
  simp [get?, remove, Std.ExtTreeMap.getElem?_erase]

theorem get?_filter (t : Reassembler) (keep : Flow → PartialMessage → Bool) (flow : Flow) :
    (t.filter keep).get? flow = (t.get? flow).filter (keep flow) := by
  simp [get?, filter]

end Reassembler

end MctpReceiver
