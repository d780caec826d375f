import MctpReceiver.Proofs.Components
import MctpReceiver.Proofs.Registrations
import Mathlib.Data.List.Forall2

/-!
# With and without reassembly

Two receivers start with the same handlers and see the same frames, with the same registrations and
removals in between, but only one of them puts fragments together. To a frame that is no packet or
holds a whole message they answer alike and call the same handlers
(`switching_off_removes_fragments`). The other does nothing with a fragment but report it, keeps
nothing, and its calls are those of the first that come from messages in one packet.

What the two have in common all along is their handlers (`Parallel`): a message in one packet looks at
nothing else, and no message changes them.
-/

namespace MctpReceiver

/-- The frame holds less than a whole message. -/
def Observation.isFragment (o : Observation) : Bool :=
  match Packet.ofFrame o.frame with
  | .ok packet => packet.header.isFragment
  | .error _ => false

/-- The frame holds a whole message. -/
def Observation.isSingle (o : Observation) : Bool :=
  match Packet.ofFrame o.frame with
  | .ok packet => !packet.header.isFragment
  | .error _ => false

/-! ## The calls of one delivery -/

namespace HandlerTable

variable {H : Type}

/-- The calls that a message leads to. -/
def callsFor (t : HandlerTable H) (message : List UInt8) (frame : FrameId) (origin : Origin) :
    List (Call H) :=
  match message with
  | [] => []
  | byte :: payload =>
    (t.get? (.ofCode (byte &&& 0x7f))).toList.map fun handler => ⟨handler, payload, frame, origin⟩

section Deliver

variable (t : HandlerTable H) (message : List UInt8) (frame : FrameId) (origin : Origin)

theorem calls_deliver : (Dispatcher.deliver t message frame origin).2.calls.toList =
    t.calls.toList ++ t.callsFor message frame origin := by
  cases message with
  | nil => exact (List.append_nil _).symm
  | cons byte payload =>
    rw [deliver_cons, callsFor]
    cases t.get? (.ofCode (byte &&& 0x7f)) <;> simp

variable {t} in
/-- A message is answered, and calls are made for it, by the handlers alone. -/
theorem deliver_congr {t' : HandlerTable H} (h : t.handlers = t'.handlers) :
    (Dispatcher.deliver t message frame origin).1 = (Dispatcher.deliver t' message frame origin).1 ∧
      t.callsFor message frame origin = t'.callsFor message frame origin := by
  have hget : ∀ type, t.get? type = t'.get? type := by
    intro type
    unfold get?
    rw [h]
  cases message with
  | nil => exact ⟨rfl, rfl⟩
  | cons byte payload =>
    rw [deliver_cons, deliver_cons, callsFor, callsFor, hget]
    cases t'.get? (.ofCode (byte &&& 0x7f)) <;> exact ⟨rfl, rfl⟩

end Deliver

end HandlerTable

namespace Receiver

variable {H : Type}

/-! ## Inputs and their log -/

/-- What a receiver with a handler table is given. -/
inductive Input (H : Type) where
  | frame (o : Observation)
  | register (type : MessageType) (handler : H)
  | unregister (type : MessageType)

def Input.event : Input H → Event (HandlerTable H)
  | frame o => .frame o
  | register type handler => .register type handler
  | unregister type => .unregister type

/-- A frame, what was reported of it, and the calls that were made for it. -/
structure Logged (H : Type) where
  observation : Observation
  report : Report
  calls : List (Call H)

/-- The calls made since a receiver had the first table, when it has the second. -/
def callsSince (t t' : HandlerTable H) : List (Call H) := t'.calls.toList.drop t.calls.size

/-- What becomes of the next frame. -/
def handle (r : Receiver (HandlerTable H)) (o : Observation) : Logged H where
  observation := o
  report := (r.receive o.frame o.id o.link).1
  calls := callsSince r.dispatcher (r.receive o.frame o.id o.link).2.dispatcher

/-- What an input adds to the log. -/
def logged? (r : Receiver (HandlerTable H)) : Input H → Option (Logged H)
  | .frame o => some (r.handle o)
  | .register _ _ | .unregister _ => none

/-- The receiver after some inputs. -/
def feed (r : Receiver (HandlerTable H)) (inputs : List (Input H)) : Receiver (HandlerTable H) :=
  r.run (inputs.map Input.event)

/-- The frames among the inputs, with what each led to. -/
def log : Receiver (HandlerTable H) → List (Input H) → List (Logged H)
  | _, [] => []
  | r, input :: inputs => (r.logged? input).toList ++ log (r.apply input.event) inputs

/-- A receiver that has seen no frame. -/
def started (t : HandlerTable H) (reassemble : Bool) : Receiver (HandlerTable H) where
  dispatcher := t
  settings := { reassemble }

/-! ## One frame -/

section Frame

variable {r : Receiver (HandlerTable H)} {o : Observation}

theorem callsSince_eq {t t' : HandlerTable H} {calls : List (Call H)}
    (h : t'.calls.toList = t.calls.toList ++ calls) : callsSince t t' = calls := by
  unfold callsSince
  rw [h, ← Array.length_toList, List.drop_left]

/-- What is handed on for a frame changes no handler, and adds to the calls. -/
theorem calls_receive (r : Receiver (HandlerTable H)) (o : Observation) :
    (r.receive o.frame o.id o.link).2.dispatcher.handlers = r.dispatcher.handlers ∧
      (r.receive o.frame o.id o.link).2.dispatcher.calls.toList = r.dispatcher.calls.toList ++
        callsSince r.dispatcher (r.receive o.frame o.id o.link).2.dispatcher := by
  have hsame : ∃ calls,
      (r.receive o.frame o.id o.link).2.dispatcher.handlers = r.dispatcher.handlers ∧
        (r.receive o.frame o.id o.link).2.dispatcher.calls.toList =
          r.dispatcher.calls.toList ++ calls := by
    rcases dispatcher_receive r o with h | ⟨message, origin, h⟩
    · exact ⟨[], by rw [h], by rw [h, List.append_nil]⟩
    · exact ⟨r.dispatcher.callsFor message o.id origin, by rw [h, HandlerTable.handlers_deliver],
        by rw [h, HandlerTable.calls_deliver]⟩
  obtain ⟨calls, hhandlers, hcalls⟩ := hsame
  exact ⟨hhandlers, by rw [callsSince_eq hcalls, hcalls]⟩

theorem handle_of_rejected {e : DecodeError} (h : Packet.ofFrame o.frame = .error e) :
    r.handle o = ⟨o, .rejected e, []⟩ := by
  unfold handle
  rw [receive_of_error h, callsSince_eq (List.append_nil _).symm]

theorem handle_of_single {packet : Packet} (hp : Packet.ofFrame o.frame = .ok packet)
    (hf : packet.header.position = .single) :
    r.handle o = ⟨o,
      .message packet.header
        (Dispatcher.deliver r.dispatcher packet.payload o.id (packet.flow.origin o.link)).1,
      r.dispatcher.callsFor packet.payload o.id (packet.flow.origin o.link)⟩ := by
  unfold handle
  rw [receive_of_single hp hf, callsSince_eq (HandlerTable.calls_deliver _ _ _ _)]

theorem handle_of_off (hr : r.settings.reassemble = false) {packet : Packet}
    (hp : Packet.ofFrame o.frame = .ok packet) (hf : packet.header.position ≠ .single) :
    r.handle o = ⟨o, .fragment packet.header [] none, []⟩ := by
  unfold handle
  rw [receive_of_off hr hp hf, callsSince_eq (List.append_nil _).symm]

end Frame

/-! ## Both receivers -/

/-- The second receiver does not put fragments together, has nothing pending, and has the handlers of
the first. -/
structure Parallel (on off : Receiver (HandlerTable H)) : Prop where
  switched_off : off.settings.reassemble = false
  nothing_pending : off.reassembler = ∅
  handlers : on.dispatcher.handlers = off.dispatcher.handlers

/-- The two frames logged are one, and if it holds no fragment they led to the same. -/
def Agree (on off : Logged H) : Prop :=
  on.observation = off.observation ∧ (on.observation.isFragment = false → on = off)

variable {on off : Receiver (HandlerTable H)}

/-- What both receivers log of one input agrees. -/
theorem Parallel.logged? (h : Parallel on off) (input : Input H) :
    List.Forall₂ Agree (on.logged? input).toList (off.logged? input).toList := by
  cases input with
  | register type handler => exact .nil
  | unregister type => exact .nil
  | frame o =>
    refine .cons ⟨rfl, fun hf => ?_⟩ .nil
    cases hp : Packet.ofFrame o.frame with
    | error e => rw [handle_of_rejected hp, handle_of_rejected hp]
    | ok packet =>
      have hsingle : packet.header.position = .single := by
        rw [← Header.isFragment_eq_false]
        simpa [handle, Observation.isFragment, hp] using hf
      obtain ⟨hreport, hcalls⟩ := HandlerTable.deliver_congr packet.payload o.id
        (packet.flow.origin o.link) h.handlers
      rw [handle_of_single hp hsingle, handle_of_single hp hsingle, hreport, hcalls]

theorem Parallel.apply (h : Parallel on off) (input : Input H) :
    Parallel (on.apply input.event) (off.apply input.event) where
  switched_off := by
    rw [(apply_of_off h.switched_off h.nothing_pending input.event).1, h.switched_off]
  nothing_pending := (apply_of_off h.switched_off h.nothing_pending input.event).2
  handlers := by
    cases input with
    | frame o => exact (calls_receive on o).1.trans (h.handlers.trans (calls_receive off o).1.symm)
    | register type handler =>
      show on.dispatcher.handlers.insert type.code handler = _
      rw [h.handlers]
      rfl
    | unregister type =>
      show on.dispatcher.handlers.erase type.code = _
      rw [h.handlers]
      rfl

theorem Parallel.log (h : Parallel on off) (inputs : List (Input H)) :
    List.Forall₂ Agree (on.log inputs) (off.log inputs) := by
  induction inputs generalizing on off with
  | nil => exact .nil
  | cons input inputs ih => exact List.rel_append (h.logged? input) (ih (h.apply input))

/-! ## The log of a run -/

/-- A frame in the log has its place in the run. -/
theorem exists_of_mem_log {r : Receiver (HandlerTable H)} {inputs : List (Input H)} {e : Logged H}
    (h : e ∈ r.log inputs) :
    ∃ before o after, inputs = before ++ .frame o :: after ∧ e = (r.feed before).handle o := by
  induction inputs generalizing r with
  | nil => simp [Receiver.log] at h
  | cons input inputs ih =>
    rw [Receiver.log, List.mem_append, Option.mem_toList] at h
    rcases h with h | h
    · cases input with
      | frame o => exact ⟨[], o, inputs, rfl, (Option.some.inj h).symm⟩
      | register type handler => cases h
      | unregister type => cases h
    · obtain ⟨before, o, after, rfl, rfl⟩ := ih h
      exact ⟨input :: before, o, after, rfl, rfl⟩

/-- The log holds the calls of a run, in order. -/
theorem calls_feed (r : Receiver (HandlerTable H)) (inputs : List (Input H)) :
    (r.feed inputs).dispatcher.calls.toList =
      r.dispatcher.calls.toList ++ (r.log inputs).flatMap (·.calls) := by
  induction inputs generalizing r with
  | nil => exact (List.append_nil _).symm
  | cons input inputs ih =>
    have hinput : (r.apply input.event).dispatcher.calls.toList =
        r.dispatcher.calls.toList ++ (r.logged? input).toList.flatMap (·.calls) := by
      cases input with
      | frame o => exact (calls_receive r o).2.trans (by simp [Receiver.logged?, handle])
      | register type handler => exact (List.append_nil _).symm
      | unregister type => exact (List.append_nil _).symm
    show ((r.apply input.event).feed inputs).dispatcher.calls.toList = _
    rw [ih, hinput, Receiver.log, List.flatMap_append, List.append_assoc]

/-- Without reassembly a fragment is reported and nothing else, and only a message in one packet is
handed on. -/
theorem handle_of_not_single (hoff : off.settings.reassemble = false) {o : Observation}
    (ho : o.isSingle = false) :
    (off.handle o).calls = [] ∧
      (o.isFragment = true → ∃ header, (off.handle o).report = .fragment header [] none) := by
  unfold Observation.isSingle at ho
  unfold Observation.isFragment
  cases hp : Packet.ofFrame o.frame with
  | error e =>
    rw [handle_of_rejected hp]
    exact ⟨rfl, fun h => nomatch h⟩
  | ok packet =>
    rw [hp] at ho
    have hf : packet.header.position ≠ .single := by
      rw [← Header.isFragment_iff]
      simpa using ho
    rw [handle_of_off hoff hp hf]
    exact ⟨rfl, fun _ => ⟨packet.header, rfl⟩⟩

theorem not_isSingle_of_isFragment {o : Observation} (h : o.isFragment = true) :
    o.isSingle = false := by
  unfold Observation.isFragment at h
  unfold Observation.isSingle
  cases hp : Packet.ofFrame o.frame with
  | error e => rfl
  | ok packet =>
    rw [hp] at h
    simpa using h

/-- What agrees, and calls somebody on the second side only for messages in one packet, calls on that
side what the first calls for these. -/
theorem calls_of_agree {ons offs : List (Logged H)} (h : List.Forall₂ Agree ons offs)
    (hoffs : ∀ e ∈ offs, e.observation.isSingle = false → e.calls = []) :
    offs.flatMap (·.calls) = (ons.filter (·.observation.isSingle)).flatMap (·.calls) := by
  induction h with
  | nil => rfl
  | @cons a b ons offs hab _ ih =>
    have hrest := ih fun e he => hoffs e (List.mem_cons_of_mem _ he)
    rw [List.flatMap_cons, hrest]
    cases hs : a.observation.isSingle with
    | true =>
      have heq : a = b := by
        refine hab.2 ?_
        by_contra hf
        rw [not_isSingle_of_isFragment (by simpa using hf)] at hs
        cases hs
      rw [List.filter_cons_of_pos (by simpa using hs), List.flatMap_cons, heq]
    | false =>
      rw [hab.1] at hs
      rw [hoffs b List.mem_cons_self hs, List.filter_cons_of_neg (by simp [hab.1, hs]),
        List.nil_append]

theorem feed_off (t : HandlerTable H) (inputs : List (Input H)) :
    ((started t false).feed inputs).settings.reassemble = false ∧
      ((started t false).feed inputs).reassembler = ∅ := by
  obtain ⟨hsettings, hreassembler⟩ :=
    run_of_off (r := started t false) rfl rfl (inputs.map Input.event)
  refine ⟨?_, hreassembler⟩
  unfold feed
  rw [hsettings]
  rfl

/-- **Switching reassembly off only takes fragments away.** Frame by frame, what is no fragment is
answered alike and leads to the same calls. Without reassembly nothing is ever pending, a fragment
calls nobody and is reported without anomalies or a message, and all calls are those that are made with
reassembly for messages in one packet. -/
theorem switching_off_removes_fragments (t : HandlerTable H) (inputs : List (Input H)) :
    List.Forall₂ Agree ((started t true).log inputs) ((started t false).log inputs) ∧
      (∀ before, before <+: inputs → ((started t false).feed before).reassembler = ∅) ∧
      (∀ e ∈ (started t false).log inputs, e.observation.isFragment = true →
        e.calls = [] ∧ ∃ header, e.report = .fragment header [] none) ∧
      ((started t true).feed inputs).dispatcher.calls.toList =
        t.calls.toList ++ ((started t true).log inputs).flatMap (·.calls) ∧
      ((started t false).feed inputs).dispatcher.calls.toList =
        t.calls.toList ++ (((started t true).log inputs).filter
          (·.observation.isSingle)).flatMap (·.calls) := by
  have hparallel : Parallel (started t true) (started t false) := ⟨rfl, rfl, rfl⟩
  have hlog := hparallel.log inputs
  have hoff : ∀ e ∈ (started t false).log inputs, e.observation.isSingle = false → e.calls = [] ∧
      (e.observation.isFragment = true → ∃ header, e.report = .fragment header [] none) := by
    intro e he hs
    obtain ⟨before, o, after, -, rfl⟩ := exists_of_mem_log he
    exact handle_of_not_single (feed_off t before).1 hs
  refine ⟨hlog, fun before _ => (feed_off t before).2, fun e he hf => ?_, calls_feed _ inputs, ?_⟩
  · obtain ⟨hcalls, hreport⟩ := hoff e he (not_isSingle_of_isFragment hf)
    exact ⟨hcalls, hreport hf⟩
  · rw [calls_feed, calls_of_agree hlog fun e he hs => (hoff e he hs).1]
    rfl

end Receiver

end MctpReceiver
