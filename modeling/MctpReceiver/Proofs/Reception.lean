import MctpReceiver.Proofs.Steps
import MctpReceiver.Receiver

/-!
# What a receiver does with a frame

A frame that is a packet does three things, each settled by what the reassembler answers: the
reassembler moves on, a message that the packet holds or completes is dispatched once and nothing
else is, and the report shows the header, the irregularities and the dispatch.
-/

namespace MctpReceiver

/-- A frame as it was observed. -/
structure Observation where
  frame : List UInt8
  id : FrameId
  link : Link
  deriving DecidableEq, Repr

/-- The whole message that a packet holds or completes. -/
def Outcome.message? : Outcome → Option (List UInt8)
  | .buffered => none
  | .completed message => some message.payload
  | .single payload => some payload

variable {δ : Type} [Dispatcher δ]

/-- The dispatcher after it was handed some deliveries. -/
def Dispatcher.dispatchAll (d : δ) (ds : List Delivery) : δ :=
  ds.foldl (fun d delivery => (Dispatcher.dispatch d delivery).2) d

/-- A message is handed on once if it has bytes. -/
theorem Dispatcher.snd_deliver (d : δ) (message : List UInt8) (frame : FrameId) (origin : Origin) :
    (Dispatcher.deliver d message frame origin).2 =
      Dispatcher.dispatchAll d (Delivery.ofMessage? message frame origin).toList := by
  unfold Dispatcher.deliver
  cases h : Delivery.ofMessage? message frame origin with
  | none => rfl
  | some delivery =>
    rcases hd : Dispatcher.dispatch d delivery with ⟨claimed, d'⟩
    cases claimed <;> simp [Dispatcher.dispatchAll, hd]

namespace Receiver

variable {r : Receiver δ} {o : Observation} {packet : Packet} {i : Ingestion}
  {next : Option PartialMessage}

/-- What becomes of a frame that is a packet, by what becomes of the packet on its flow. -/
theorem receive_of_step (hr : r.settings.reassemble = true)
    (hp : Packet.ofFrame o.frame = .ok packet)
    (hstep : Step packet.flow (packet.observedIn o.id) (r.reassembler.get? packet.flow) i next) :
    (r.receive o.frame o.id o.link).2 =
      { r with
        reassembler := (r.reassembler.ingest packet.flow (packet.observedIn o.id)).2
        dispatcher := Dispatcher.dispatchAll r.dispatcher
          ((i.outcome.message?.bind (Delivery.ofMessage? · o.id (packet.flow.origin o.link))).toList) } ∧
    (r.receive o.frame o.id o.link).1.header? = some packet.header ∧
    (r.receive o.frame o.id o.link).1.anomalies = i.anomalies ∧
    (r.receive o.frame o.id o.link).1.dispatch? = i.outcome.message?.map fun message =>
      (Dispatcher.deliver r.dispatcher message o.id (packet.flow.origin o.link)).1 := by
  have hi : (r.reassembler.ingest packet.flow (packet.observedIn o.id)).1 = i := by
    rw [← show _ = i from congrArg Prod.fst hstep.ingestOne_eq]
    rfl
  rcases hing : r.reassembler.ingest packet.flow (packet.observedIn o.id) with ⟨i', t⟩
  obtain rfl : i' = i := by rw [← hi, hing]
  have hreceive : r.receive o.frame o.id o.link = r.receivePacket packet o.id o.link := by
    unfold receive
    rw [hp]
  rw [hreceive]
  unfold receivePacket
  simp only [hr, Bool.not_true, Bool.and_false, Bool.false_eq_true, if_false, hing]
  generalize r.reassembler.get? packet.flow = pending at hstep
  cases hstep <;>
    simp [Outcome.message?, Dispatcher.snd_deliver, Dispatcher.dispatchAll, Report.header?,
      Report.anomalies, Report.dispatch?]

end Receiver

end MctpReceiver
