import MctpReceiver.Proofs.Runs
import MctpReceiver.Proofs.Transmission
import MctpReceiver.Proofs.Unbroken
import Mathlib.Data.List.Induction

/-!
# Lossless reassembly

The frames of a transmission, taken in one after the other, give its message back. `lossless` says so
for any reassembler, whatever is pending on the flow of the transmission: the first frame starts
afresh, as long as it does not look like a repetition of the fragment kept last.

`Underway s ids m` is what holds after the frames observed as `ids`: the partial message `m` is
unbroken and keeps exactly the first fragments of `s`.
-/

namespace MctpReceiver

namespace Transmission

variable (s : Transmission)

/-- The fragment in frame `i` of the transmission, as observed. -/
def fragment (i : Nat) (id : FrameId) : Fragment := ⟨s.header i, s.pieces.getD i [], id⟩

/-- The first fragments of the transmission, as observed one after the other. -/
def observed (ids : List FrameId) : List Fragment := ids.mapIdx s.fragment

theorem observed_concat (ids : List FrameId) (id : FrameId) :
    s.observed (ids ++ [id]) = s.observed ids ++ [s.fragment ids.length id] :=
  List.mapIdx_concat

theorem map_frame_observed (ids : List FrameId) : (s.observed ids).map (·.frame) = ids := by
  induction ids using List.reverseRecOn with
  | nil => rfl
  | append_singleton ids id ih => rw [observed_concat, List.map_append, ih]; rfl

theorem flatMap_payload_observed (ids : List FrameId) :
    (s.observed ids).flatMap (·.payload) = (s.pieces.take ids.length).flatten := by
  induction ids using List.reverseRecOn with
  | nil => rfl
  | append_singleton ids id ih =>
    rw [observed_concat, List.flatMap_append, ih, List.length_append, List.length_singleton,
      List.take_add_one, List.flatten_append]
    cases h : s.pieces[ids.length]? <;> simp [fragment, List.getD_eq_getElem?_getD, h]

/-- All frames together carry the message. -/
theorem flatMap_payload_of_length {ids : List FrameId} (h : ids.length = s.count) :
    (s.observed ids).flatMap (·.payload) = s.message := by
  rw [flatMap_payload_observed, h, count, List.take_length, flatten_pieces]

/-- The message as it is received in `frames`, from the first to the last of them. -/
def received (startFrame completedIn : FrameId) (frames : List FrameId) : Message where
  flow := s.flow
  payload := s.message
  startFrame := startFrame
  completedIn := completedIn
  frames := frames
  conflicted := false

/-! ## Places in the message -/

theorem position_header_single (h : s.count = 1) : (s.header 0).position = .single := by
  rw [Header.position_eq_single]
  simp [header, h]

theorem position_header_first (h : 1 < s.count) : (s.header 0).position = .first := by
  rw [Header.position_eq_first]
  simp only [header, beq_self_eq_true, true_and, beq_eq_false_iff_ne]
  omega

theorem position_header_middle {i : Nat} (hi : 0 < i) (h : i + 1 < s.count) :
    (s.header i).position = .middle := by
  rw [Header.position_eq_middle]
  simp only [header, beq_eq_false_iff_ne]
  omega

theorem position_header_last {i : Nat} (hi : 0 < i) (h : i + 1 = s.count) :
    (s.header i).position = .last := by
  rw [Header.position_eq_last]
  simp only [header, beq_eq_false_iff_ne, beq_iff_eq]
  omega

theorem sequence_succ (i : Nat) : s.sequence (i + 1) = (s.sequence i).next := by
  unfold sequence Sequence.next
  rw [← Nat.add_assoc, BitVec.ofNat_add]
  rfl

/-- Every fragment carries on behind the one before it, also where the numbering wraps. -/
theorem fragment_continues (i : Nat) (id id' : FrameId) :
    (s.fragment i id).Continues (s.fragment (i + 1) id') := by
  left
  show (s.sequence i).distanceTo (s.sequence (i + 1)) = 1
  rw [sequence_succ, Sequence.distanceTo_next]

end Transmission

/-! ## A message underway -/

/-- The partial message keeps the fragments of the transmission that were observed as `ids`, and is
as good as new. -/
structure Underway (s : Transmission) (ids : List FrameId) (m : PartialMessage) : Prop where
  fragments : m.fragments = s.observed ids
  unbroken : ∃ q qs, m.Unbroken q qs
  conflicted : m.conflicted = false

namespace Underway

variable {s : Transmission} {ids : List FrameId} {id : FrameId} {m : PartialMessage}

theorem ids_ne_nil (h : Underway s ids m) : ids ≠ [] := by
  rintro rfl
  have hf : m.fragments = [] := h.fragments
  simp [PartialMessage.fragments] at hf

theorem startFrame (h : Underway s ids m) : m.startFrame = ids.head? := by
  obtain ⟨q, qs, hu⟩ := h.unbroken
  rw [hu.startFrame, ← s.map_frame_observed ids, ← h.fragments, hu.fragments]
  rfl

theorem latest_continues (h : Underway s ids m) (id : FrameId) :
    m.latest.Continues (s.fragment ids.length id) := by
  rcases List.eq_nil_or_concat' ids with rfl | ⟨ids, last, rfl⟩
  · exact absurd rfl h.ids_ne_nil
  · have hlatest : m.fragments.getLast? = some m.latest := by
      rw [PartialMessage.fragments, List.reverse_cons, List.getLast?_concat]
    rw [h.fragments, s.observed_concat, List.getLast?_concat, Option.some.injEq] at hlatest
    rw [← hlatest, List.length_append]
    exact s.fragment_continues ids.length last id

/-- The first of several frames begins a message, as new. -/
theorem start (h : 1 < s.count) (id : FrameId) :
    Underway s [id] (.start (s.fragment 0 id)) where
  fragments := rfl
  unbroken := ⟨_, _, PartialMessage.unbroken_start (s.position_header_first h)⟩
  conflicted := rfl

/-- A frame that is not the last is added and leaves the message underway. -/
theorem next (h : Underway s ids m) (hk : ids.length + 1 < s.count) (id : FrameId) :
    Step s.flow (s.fragment ids.length id) (some m) ⟨.buffered, []⟩
        (some (m.append (s.fragment ids.length id))) ∧
      Underway s (ids ++ [id]) (m.append (s.fragment ids.length id)) := by
  obtain ⟨q, qs, hu⟩ := h.unbroken
  have hpos := s.position_header_middle (List.length_pos_iff.2 h.ids_ne_nil) hk
  have hc := h.latest_continues id
  refine ⟨hu.step_append _ hpos hc, ?_, ⟨q, _, hu.append hpos hc⟩, h.conflicted⟩
  rw [PartialMessage.fragments_append, h.fragments, s.observed_concat]

/-- With the last frame added, the message is put together as it was sent. -/
theorem assemble (h : Underway s ids m) (hk : ids.length + 1 = s.count) (id : FrameId) :
    (m.append (s.fragment ids.length id)).assemble s.flow id =
      s.received (ids.head h.ids_ne_nil) id (ids ++ [id]) := by
  have hfragments : (m.append (s.fragment ids.length id)).fragments = s.observed (ids ++ [id]) := by
    rw [PartialMessage.fragments_append, h.fragments, s.observed_concat]
  have hpayload : (m.append (s.fragment ids.length id)).payload = s.message := by
    rw [PartialMessage.payload, hfragments]
    exact s.flatMap_payload_of_length (by rw [List.length_append, List.length_singleton, hk])
  have hframes : (m.append (s.fragment ids.length id)).frames = ids ++ [id] := by
    rw [PartialMessage.frames, hfragments, s.map_frame_observed]
  have hstart : (m.append (s.fragment ids.length id)).startFrame =
      some (ids.head h.ids_ne_nil) := by
    rw [← List.head?_eq_some_head h.ids_ne_nil]
    exact h.startFrame
  have hconflict : (m.append (s.fragment ids.length id)).conflicted = false := h.conflicted
  rw [PartialMessage.assemble, hpayload, hframes, hstart, hconflict, Option.getD_some]
  rfl

/-- The last frame completes the message. -/
theorem finish (h : Underway s ids m) (hk : ids.length + 1 = s.count) (id : FrameId) :
    Step s.flow (s.fragment ids.length id) (some m)
      ⟨.completed (s.received (ids.head h.ids_ne_nil) id (ids ++ [id])), []⟩ none := by
  obtain ⟨q, qs, hu⟩ := h.unbroken
  have hpos := s.position_header_last (List.length_pos_iff.2 h.ids_ne_nil) hk
  rw [← h.assemble hk id]
  exact hu.step_complete s.flow hpos (h.latest_continues id)

end Underway

/-! ## The whole transmission -/

/-- Packets that are taken in one after the other, each on its own flow, in the frames `ids`. -/
def arrivals (packets : List Packet) (ids : ℕ → FrameId) : List Action :=
  packets.mapIdx fun i p => .ingest p.flow (p.observedIn (ids i))

theorem arrivals_append (xs ys : List Packet) (ids : ℕ → FrameId) :
    arrivals (xs ++ ys) ids = arrivals xs ids ++ arrivals ys fun i => ids (i + xs.length) :=
  List.mapIdx_append

namespace Transmission

variable (s : Transmission) {pending : Option PartialMessage}

/-- The first `n` fragments of the transmission, observed in the frames `ids`. -/
def arriving (ids : ℕ → FrameId) (n : ℕ) : List Fragment :=
  (List.range n).map fun i => s.fragment i (ids i)

@[simp] theorem length_arriving (ids : ℕ → FrameId) (n : ℕ) : (s.arriving ids n).length = n := by
  rw [arriving, List.length_map, List.length_range]

theorem arriving_one (ids : ℕ → FrameId) : s.arriving ids 1 = [s.fragment 0 (ids 0)] := rfl

theorem arriving_succ (ids : ℕ → FrameId) (n : ℕ) :
    s.arriving ids (n + 1) = s.arriving ids n ++ [s.fragment n (ids n)] := by
  rw [arriving, List.range_succ, List.map_append]
  rfl

theorem arrivals_packets (ids : ℕ → FrameId) :
    arrivals s.packets ids = (s.arriving ids s.count).map (.ingest s.flow) := by
  refine List.ext_getElem (by simp [arrivals, arriving]) fun i hi _ => ?_
  have hi' : i < s.pieces.length := by simpa [arrivals, packets] using hi
  simp [arrivals, arriving, packets, fragment, Packet.observedIn, Packet.flow, hi']

/-- The frames with the numbers `ks`, observed one after the other. -/
def heard (ks : List ℕ) (ids : ℕ → FrameId) : List Fragment :=
  ks.mapIdx fun j k => s.fragment k (ids j)

theorem heard_cons (k : ℕ) (ks : List ℕ) (ids : ℕ → FrameId) :
    s.heard (k :: ks) ids = s.fragment k (ids 0) :: s.heard ks fun j => ids (j + 1) :=
  List.mapIdx_cons

theorem heard_concat (ks : List ℕ) (k : ℕ) (ids : ℕ → FrameId) :
    s.heard (ks ++ [k]) ids = s.heard ks ids ++ [s.fragment k (ids ks.length)] :=
  List.mapIdx_concat

theorem arrivals_map_packet (ks : List ℕ) (ids : ℕ → FrameId) :
    arrivals (ks.map s.packet) ids = (s.heard ks ids).map (.ingest s.flow) := by
  refine List.ext_getElem (by simp [arrivals, heard]) fun i hi _ => ?_
  simp [arrivals, heard, packet, fragment, Packet.observedIn, Packet.flow]

theorem heard_range (n : ℕ) (ids : ℕ → FrameId) : s.heard (List.range n) ids = s.arriving ids n := by
  induction n with
  | zero => rfl
  | succ n ih => rw [List.range_succ, heard_concat, ih, List.length_range, arriving_succ]

/-- The first frame does not look like a repetition of what is pending. -/
theorem step_first (h : 1 < s.count) (id : FrameId)
    (hp : ∀ m, pending = some m → (s.fragment 0 id).repeats m.latest = false) :
    Step s.flow (s.fragment 0 id) pending ⟨.buffered, []⟩
      (some (.start (s.fragment 0 id))) := by
  cases pending with
  | none => exact .opened (s.position_header_first h)
  | some m => exact .restarted (s.position_header_first h) (hp m rfl)

theorem repeats_fragment_zero (h : 1 < s.count) {id : FrameId} {f : Fragment}
    (hf : ¬ (f.header.som = true ∧ f.header.eom = false ∧ f.header.sequence = s.sequence 0)) :
    (s.fragment 0 id).repeats f = false := by
  refine Bool.eq_false_iff.2 fun hr => hf ?_
  obtain ⟨hq, hs, he⟩ := Fragment.repeats_iff.1 hr
  obtain ⟨hs', he'⟩ := Header.position_eq_first.1 (s.position_header_first h)
  exact ⟨hs.symm.trans hs', he.symm.trans he', hq.symm⟩

/-- A message in one frame passes by. -/
theorem step_single (h : s.count = 1) (id : FrameId) :
    Step s.flow (s.fragment 0 id) pending ⟨.single s.message, []⟩ pending := by
  have hpayload : (s.fragment 0 id).payload = s.message := by
    have hlen : [id].length = s.count := h.symm
    rw [← s.flatMap_payload_of_length hlen]
    simp [observed]
  rw [← hpayload]
  exact .single (s.position_header_single h)

/-- As long as frames are to come, the message is underway and nothing is reported. -/
theorem run_arriving (ids : ℕ → FrameId)
    (hp : ∀ m, pending = some m → (s.fragment 0 (ids 0)).repeats m.latest = false) {n : ℕ}
    (hn : n + 1 < s.count) :
    (∃ m, FlowAction.run s.flow pending ((s.arriving ids (n + 1)).map .ingest) = some m ∧
      Underway s ((List.range (n + 1)).map ids) m) ∧
    (FlowAction.log s.flow pending ((s.arriving ids (n + 1)).map .ingest)).map (·.result) =
      List.replicate (n + 1) ⟨.buffered, []⟩ := by
  induction n with
  | zero =>
    have hstep := (s.step_first (by omega) (ids 0) hp).ingestOne_eq
    refine ⟨⟨_, ?_, Underway.start (by omega) (ids 0)⟩, ?_⟩
    · exact congrArg Prod.snd hstep
    · simp [arriving, FlowAction.log, FlowAction.logged?, hstep]
  | succ n ih =>
    obtain ⟨⟨m, hrun, hu⟩, hlog⟩ := ih (by omega)
    have hlen : ((List.range (n + 1)).map ids).length = n + 1 := by simp
    obtain ⟨hstep, hu'⟩ := hu.next (by rw [hlen]; exact hn) (ids (n + 1))
    rw [hlen] at hstep hu'
    rw [arriving_succ, List.map_append, List.map_singleton, FlowAction.run_concat_ingest,
      FlowAction.log_concat_ingest, hrun, hstep.ingestOne_eq, List.range_succ, List.map_append,
      List.map_append, hlog]
    exact ⟨⟨_, rfl, hu'⟩, List.replicate_succ'.symm⟩

/-- The frames of a message in several give it back, and nothing is left pending. -/
theorem run_arriving_count (ids : ℕ → FrameId)
    (hp : ∀ m, pending = some m → (s.fragment 0 (ids 0)).repeats m.latest = false)
    (hcount : 2 ≤ s.count) :
    FlowAction.run s.flow pending ((s.arriving ids s.count).map .ingest) = none ∧
    (FlowAction.log s.flow pending ((s.arriving ids s.count).map .ingest)).map (·.result) =
      List.replicate (s.count - 1) ⟨.buffered, []⟩ ++
        [⟨.completed (s.received (ids 0) (ids (s.count - 1)) ((List.range s.count).map ids)),
          []⟩] := by
  obtain ⟨n, hn⟩ : ∃ n, s.count = n + 2 := ⟨s.count - 2, by omega⟩
  obtain ⟨⟨m, hrun, hu⟩, hlog⟩ := s.run_arriving ids hp (n := n) (by omega)
  have hlen : ((List.range (n + 1)).map ids).length = n + 1 := by simp
  have hstep := hu.finish (by rw [hlen, hn]) (ids (n + 1))
  have hhead : ((List.range (n + 1)).map ids).head hu.ids_ne_nil = ids 0 := by simp
  have hids : (List.range (n + 1)).map ids ++ [ids (n + 1)] = (List.range (n + 2)).map ids := by
    rw [List.range_succ (n := n + 1), List.map_append]
    rfl
  rw [hlen, hhead, hids] at hstep
  rw [hn, arriving_succ, List.map_append, List.map_singleton, FlowAction.run_concat_ingest,
    FlowAction.log_concat_ingest, hrun, hstep.ingestOne_eq, List.map_append, hlog]
  exact ⟨rfl, rfl⟩

end Transmission

/-- **Lossless reassembly.** The frames of a transmission are read and taken in one after the other,
by any reassembler and in frames with any numbers. If there is one, it is passed on and nothing
changes. If there are several, all but the last are kept, the last completes the message as it was
sent, nothing is irregular, and nothing changes but that the flow is left with no partial message.
For this, the fragment kept last on the flow must not be a start of message with the sequence number
of the first frame. -/
theorem lossless (s : Transmission) (t : Reassembler) (ids : ℕ → FrameId) :
    ∃ packets, s.frames.mapM Packet.ofFrame = .ok packets ∧
      (∀ p ∈ packets, p.flow = s.flow) ∧ 0 < s.frames.length ∧
      (s.frames.length = 1 →
        (t.log (arrivals packets ids)).map (·.result) = [⟨.single s.message, []⟩] ∧
        t.run (arrivals packets ids) = t) ∧
      (2 ≤ s.frames.length →
        (∀ m, t.get? s.flow = some m →
          ¬ (m.latest.header.som = true ∧ m.latest.header.eom = false ∧
            m.latest.header.sequence = BitVec.ofNat 2 s.labelling.firstSequence.toNat)) →
        (t.log (arrivals packets ids)).map (·.result) =
          List.replicate (s.frames.length - 1) ⟨.buffered, []⟩ ++
            [⟨.completed
              { flow := s.flow
                payload := s.message
                startFrame := ids 0
                completedIn := ids (s.frames.length - 1)
                frames := (List.range s.frames.length).map ids
                conflicted := false }, []⟩] ∧
        (t.run (arrivals packets ids)).get? s.flow = none ∧
        ∀ flow ≠ s.flow, (t.run (arrivals packets ids)).get? flow = t.get? flow) := by
  refine ⟨s.packets, s.mapM_ofFrame_frames, ?_, ?_, ?_, ?_⟩
  · intro p hp
    obtain ⟨i, hi, rfl⟩ := List.mem_mapIdx.1 hp
    rfl
  · rw [s.length_frames]
    exact s.count_pos
  · intro hone
    rw [s.length_frames] at hone
    have hstep : Step s.flow (s.fragment 0 (ids 0)) (t.get? s.flow) _ (t.get? s.flow) :=
      s.step_single hone (ids 0)
    have harr : s.arriving ids s.count = [s.fragment 0 (ids 0)] := by
      rw [hone]
      rfl
    rw [s.arrivals_packets, Reassembler.log_ingest, harr]
    refine ⟨by simp [FlowAction.log, FlowAction.logged?, hstep.ingestOne_eq],
      Reassembler.ext_get? fun flow => ?_⟩
    rw [Reassembler.get?_run, Action.filterMap_on_ingest]
    split
    · next h => rw [← h]; exact congrArg Prod.snd hstep.ingestOne_eq
    · rfl
  · intro htwo hfree
    rw [s.length_frames] at htwo ⊢
    have hp : ∀ m, t.get? s.flow = some m → (s.fragment 0 (ids 0)).repeats m.latest = false :=
      fun m hm => s.repeats_fragment_zero htwo (hfree m hm)
    obtain ⟨hrun, hlog⟩ := s.run_arriving_count ids hp htwo
    rw [s.arrivals_packets, Reassembler.log_ingest]
    refine ⟨hlog, ?_, fun flow hne => ?_⟩
    · rw [Reassembler.get?_run, Action.filterMap_on_ingest, if_pos rfl]
      exact hrun
    · rw [Reassembler.get?_run, Action.filterMap_on_ingest, if_neg (Ne.symm hne)]
      rfl

/-- Behind an end without a start, which can never be completed. -/
theorem request_lossless :
    ∃ packets, Transmission.request.frames.mapM Packet.ofFrame = .ok packets ∧
      (((∅ : Reassembler).run [.ingest Transmission.request.flow
          ⟨.ofFlags .one ⟨8, 16⟩ 0x7b, [0x09], 0⟩]).log (arrivals packets UInt64.ofNat)).map
            (·.result) =
        [⟨.buffered, []⟩, ⟨.buffered, []⟩,
          ⟨.completed ⟨Transmission.request.flow, Transmission.request.message, 0, 2, [0, 1, 2],
            false⟩, []⟩] := by
  obtain ⟨packets, hread, -, -, -, hseveral⟩ := lossless Transmission.request
    ((∅ : Reassembler).run [.ingest Transmission.request.flow
      ⟨.ofFlags .one ⟨8, 16⟩ 0x7b, [0x09], 0⟩]) UInt64.ofNat
  have hlength : Transmission.request.frames.length = 3 := by
    rw [Transmission.frames_request]
    rfl
  rw [hlength] at hseveral
  refine ⟨packets, hread, (hseveral (by decide) fun m hm => ?_).1⟩
  rw [Reassembler.get?_run, Reassembler.get?_emptyCollection] at hm
  obtain rfl := Option.some.inj hm
  decide

end MctpReceiver
