import MctpReceiver.Proofs.Lossless
import Mathlib.Data.List.Forall2

/-!
# Lost ends

Messages are sent one after the other on one flow, and the last frames of any of them may be lost. A
start of message begins a new one, whatever is pending, unless it looks like a repetition: if nothing
but the start of a message is left over, and the next message starts with the same sequence number,
then its start is dropped as a second copy of the one that is left over. `completed_after_lost_ends`
says that messages are mixed up in no other way: what is completed is a message of which no frame is
lost, but for its first piece in this case.

`leftover` tells from the messages which start is left over and which starts were dropped for it, and
`Leaves` what is then pending. `Led s l n m` is what holds while the frames of `s` come in behind the
start of `l`, which may be that of another message.
-/

namespace MctpReceiver

/-- A transmission of which the first frames arrive, one at least, and the others are lost. -/
structure Truncated where
  sent : Transmission
  /-- The number of frames that arrive. -/
  kept : ℕ
  kept_pos : 0 < kept
  kept_le : kept ≤ sent.frames.length

/-- A start of message that is pending. -/
structure Leftover where
  /-- The message to which it belongs. -/
  start : Transmission
  /-- The messages behind it whose starts were dropped as copies of it. -/
  dropped : List Transmission

namespace Transmission

variable (s : Transmission)

/-- What the first frame carries. -/
def lead : List UInt8 := s.message.take s.size

/-- What the other frames carry. -/
def remainder : List UInt8 := s.message.drop s.size

/-- The start that is pending once that of `s` has come in, when `left` was left over. -/
def begun (left : Option Leftover) : Leftover :=
  match left with
  | some l => if l.start.sequence 0 = s.sequence 0 then ⟨l.start, l.dropped ++ [s]⟩ else ⟨s, []⟩
  | none => ⟨s, []⟩

/-- What is irregular about the start of `s` if it is taken for a copy of the start of `a`. -/
def copyOf (a : Transmission) : Anomaly := if s.lead = a.lead then .overlap else .overlapConflict

theorem lead_append_remainder : s.lead ++ s.remainder = s.message := List.take_append_drop _ _

theorem pieces_eq : s.pieces = s.lead :: piecesOf s.size s.remainder := by
  have hlength := List.length_pos_iff.2 s.message_ne_nil
  have hsize := s.size_pos
  rw [pieces, piecesOf, dif_neg (by omega)]
  rfl

theorem payload_fragment_zero (id : FrameId) : (s.fragment 0 id).payload = s.lead := by
  show s.pieces.getD 0 [] = s.lead
  rw [s.pieces_eq, List.getD_cons_zero]

variable {s}

theorem begun_of_eq {l : Leftover} (h : l.start.sequence 0 = s.sequence 0) :
    s.begun (some l) = ⟨l.start, l.dropped ++ [s]⟩ := if_pos h

theorem begun_of_ne {l : Leftover} (h : l.start.sequence 0 ≠ s.sequence 0) :
    s.begun (some l) = ⟨s, []⟩ := if_neg h

theorem begun_cases (left : Option Leftover) :
    (∃ l, left = some l ∧ l.start.sequence 0 = s.sequence 0 ∧
      s.begun left = ⟨l.start, l.dropped ++ [s]⟩) ∨ s.begun left = ⟨s, []⟩ := by
  cases left with
  | none => exact Or.inr rfl
  | some l =>
    by_cases h : l.start.sequence 0 = s.sequence 0
    · exact Or.inl ⟨l, rfl, h, begun_of_eq h⟩
    · exact Or.inr (begun_of_ne h)

theorem sequence_begun (left : Option Leftover) :
    (s.begun left).start.sequence 0 = s.sequence 0 := by
  rcases s.begun_cases left with ⟨l, -, h, hbegun⟩ | hbegun
  · rw [hbegun, h]
  · rw [hbegun]

end Transmission

/-- A start was dropped that carries something else than the one that was kept. -/
def Leftover.Conflicted (l : Leftover) : Prop := ∃ s ∈ l.dropped, s.lead ≠ l.start.lead

theorem Leftover.conflicted_concat (l : Leftover) (s : Transmission) :
    Conflicted ⟨l.start, l.dropped ++ [s]⟩ ↔ l.Conflicted ∨ s.lead ≠ l.start.lead := by
  simp [Conflicted, or_and_right, exists_or]

namespace Truncated

variable (b : Truncated)

/-- The frames that arrive. -/
def frames : List (List UInt8) := b.sent.frames.take b.kept

/-- The packets in the frames that arrive. -/
def packets : List Packet := (List.range b.kept).map b.sent.packet

/-- No frame is lost. -/
def Whole : Prop := b.kept = b.sent.frames.length

/-- The start that is left over behind `b`, with nothing else of its message, given the one before. A
message in one frame passes by. -/
def leave (left : Option Leftover) : Option Leftover :=
  if b.sent.frames.length = 1 then left
  else if b.kept = 1 then some (b.sent.begun left)
  else none

@[simp] theorem length_frames : b.frames.length = b.kept :=
  List.length_take_of_le b.kept_le

end Truncated

/-- The number of frames that arrive of the messages. -/
def arrived (bs : List Truncated) : ℕ := (bs.flatMap Truncated.frames).length

@[simp] theorem arrived_nil : arrived [] = 0 := rfl

@[simp] theorem arrived_cons (b : Truncated) (bs : List Truncated) :
    arrived (b :: bs) = b.kept + arrived bs := by
  simp [arrived]

theorem arrived_concat (bs : List Truncated) (b : Truncated) :
    arrived (bs ++ [b]) = arrived bs + b.kept := by
  simp [arrived]

/-- Each frame that arrives is one of a message. -/
theorem exists_split_of_lt_arrived {bs : List Truncated} {i : ℕ} (h : i < arrived bs) :
    ∃ before b after j, bs = before ++ b :: after ∧ j < b.kept ∧ i = arrived before + j := by
  induction bs generalizing i with
  | nil => exact absurd h (Nat.not_lt_zero i)
  | cons b bs ih =>
    rw [arrived_cons] at h
    by_cases hi : i < b.kept
    · exact ⟨[], b, bs, i, rfl, hi, (Nat.zero_add i).symm⟩
    · obtain ⟨before, c, after, j, rfl, hj, hij⟩ := ih (i := i - b.kept) (by omega)
      exact ⟨b :: before, c, after, j, rfl, hj, by rw [arrived_cons]; omega⟩

/-- The number of frames up to the last of a message tells which message it is. -/
theorem split_unique {xs ys xs' ys' : List Truncated} {b b' : Truncated}
    (h : xs ++ b :: ys = xs' ++ b' :: ys') (harrived : arrived (xs ++ [b]) = arrived (xs' ++ [b'])) :
    xs = xs' ∧ b = b' := by
  rw [arrived_concat, arrived_concat] at harrived
  have hb := b.kept_pos
  have hb' := b'.kept_pos
  induction xs generalizing xs' with
  | nil =>
    cases xs' with
    | nil => exact ⟨rfl, (List.cons.inj h).1⟩
    | cons c xs' =>
      obtain ⟨rfl, -⟩ := List.cons.inj h
      rw [arrived_nil, arrived_cons] at harrived
      omega
  | cons c xs ih =>
    cases xs' with
    | nil =>
      obtain ⟨rfl, -⟩ := List.cons.inj h
      rw [arrived_nil, arrived_cons] at harrived
      omega
    | cons c' xs' =>
      obtain ⟨rfl, htail⟩ := List.cons.inj h
      rw [arrived_cons, arrived_cons] at harrived
      obtain ⟨rfl, rfl⟩ := ih htail (by omega)
      exact ⟨rfl, rfl⟩

/-- The start of a message that is left over behind the messages `bs`, and nothing else of it: of the
last of them in several frames only the first frame has arrived. If there are more of the kind before
it, and all have the same first sequence number, it is the first of these. -/
def leftover (bs : List Truncated) : Option Leftover := bs.foldl (fun left b => b.leave left) none

theorem leftover_concat (bs : List Truncated) (b : Truncated) :
    leftover (bs ++ [b]) = b.leave (leftover bs) := by
  unfold leftover
  rw [List.foldl_concat]

/-- Of one of the messages `bs`, which is in several frames, only the start has arrived; and of those
behind it that are in several frames, only starts with its sequence number, and these were dropped. -/
def EndsInStart (bs : List Truncated) (l : Leftover) : Prop :=
  ∃ before b after, bs = before ++ b :: after ∧ b.sent = l.start ∧ b.kept = 1 ∧
    2 ≤ l.start.frames.length ∧
    (∀ c ∈ after, c.sent.frames.length = 1 ∨
      c.kept = 1 ∧ c.sent.sequence 0 = l.start.sequence 0) ∧
    l.dropped = (after.filter fun c => c.sent.frames.length ≠ 1).map Truncated.sent

namespace EndsInStart

variable {bs : List Truncated} {l : Leftover} {b : Truncated}

theorem self (hkept : b.kept = 1) (hcount : b.sent.frames.length ≠ 1) :
    EndsInStart (bs ++ [b]) ⟨b.sent, []⟩ := by
  have hpos := b.kept_pos
  have hle := b.kept_le
  exact ⟨bs, b, [], rfl, rfl, hkept, by dsimp only; omega,
    fun c hc => absurd hc List.not_mem_nil, rfl⟩

theorem concat (h : EndsInStart bs l)
    (hb : b.sent.frames.length = 1 ∨ b.kept = 1 ∧ b.sent.sequence 0 = l.start.sequence 0) :
    EndsInStart (bs ++ [b])
      ⟨l.start, l.dropped ++ ([b].filter fun c => c.sent.frames.length ≠ 1).map Truncated.sent⟩ := by
  obtain ⟨before, b', after, rfl, hsent, hkept, hcount, hafter, hdropped⟩ := h
  refine ⟨before, b', after ++ [b], by simp, hsent, hkept, hcount, fun c hc => ?_, ?_⟩
  · rcases List.mem_append.1 hc with hc | hc
    · exact hafter c hc
    · rw [List.mem_singleton.1 hc]
      exact hb
  · rw [hdropped, List.filter_append, List.map_append]

theorem pass (h : EndsInStart bs l) (hone : b.sent.frames.length = 1) :
    EndsInStart (bs ++ [b]) l := by
  have hconcat := h.concat (Or.inl hone)
  rwa [List.filter_cons_of_neg (by simpa using hone), List.filter_nil, List.map_nil,
    List.append_nil] at hconcat

theorem drop (h : EndsInStart bs l) (hone : b.sent.frames.length ≠ 1) (hkept : b.kept = 1)
    (hs : b.sent.sequence 0 = l.start.sequence 0) :
    EndsInStart (bs ++ [b]) ⟨l.start, l.dropped ++ [b.sent]⟩ := by
  have hconcat := h.concat (Or.inr ⟨hkept, hs⟩)
  rwa [List.filter_cons_of_pos (by simpa using hone), List.filter_nil, List.map_singleton]
    at hconcat

end EndsInStart

/-- The start that is left over is the start of one of the messages, and nothing that came behind it
has superseded it. -/
theorem endsInStart_of_leftover {bs : List Truncated} {l : Leftover}
    (h : leftover bs = some l) : EndsInStart bs l := by
  induction bs using List.reverseRecOn generalizing l with
  | nil => cases h
  | append_singleton bs b ih =>
    rw [leftover_concat, Truncated.leave] at h
    split at h
    · next hone => exact (ih h).pass hone
    · next hone =>
      split at h
      · next hkept =>
        obtain rfl := Option.some.inj h
        rcases Transmission.begun_cases (s := b.sent) (leftover bs) with
          ⟨l, hleft, hs, hbegun⟩ | hbegun
        · rw [hbegun]
          exact (ih hleft).drop hone hkept hs.symm
        · rw [hbegun]
          exact .self hkept hone
      · cases h

/-! ## Reading the frames -/

/-- The frames that arrive are read. -/
theorem mapM_ofFrame_flatMap_frames (bs : List Truncated) :
    (bs.flatMap Truncated.frames).mapM Packet.ofFrame = .ok (bs.flatMap Truncated.packets) := by
  refine mapM_ok_of_forall₂ (List.rel_flatMap (R := Eq) (List.forall₂_same.2 fun _ _ => rfl) ?_)
  rintro b _ rfl
  have hle : b.kept ≤ b.sent.count := by simpa using b.kept_le
  refine List.forall₂_iff_get.2 ⟨by simp [Truncated.frames, Truncated.packets, hle],
    fun i hi _ => ?_⟩
  have hlt : i < b.sent.frames.length := Nat.lt_of_lt_of_le hi (List.length_take_le' _ _)
  simpa [Truncated.frames, Truncated.packets] using b.sent.ofFrame_getElem hlt

/-- The fragments that arrive, as observed one after the other. -/
def observations : List Truncated → (ℕ → FrameId) → List Fragment
  | [], _ => []
  | b :: bs, ids => b.sent.arriving ids b.kept ++ observations bs fun i => ids (b.kept + i)

theorem observations_append (xs ys : List Truncated) (ids : ℕ → FrameId) :
    observations (xs ++ ys) ids =
      observations xs ids ++ observations ys fun i => ids (arrived xs + i) := by
  induction xs generalizing ids with
  | nil => simp [observations]
  | cons b xs ih =>
    simp only [List.cons_append, observations, ih, List.append_assoc, arrived_cons, Nat.add_assoc]

theorem length_observations (bs : List Truncated) (ids : ℕ → FrameId) :
    (observations bs ids).length = arrived bs := by
  induction bs generalizing ids with
  | nil => rfl
  | cons b bs ih =>
    rw [observations, List.length_append, ih, arrived_cons, Transmission.length_arriving]

theorem arrivals_flatMap_packets {flow : Flow} {bs : List Truncated}
    (hflow : ∀ b ∈ bs, b.sent.flow = flow) (ids : ℕ → FrameId) :
    arrivals (bs.flatMap Truncated.packets) ids = (observations bs ids).map (.ingest flow) := by
  induction bs generalizing ids with
  | nil => rfl
  | cons b bs ih =>
    have hlength : b.packets.length = b.kept := by simp [Truncated.packets]
    have hids : (fun i => ids (i + b.kept)) = fun i => ids (b.kept + i) :=
      funext fun i => congrArg ids (Nat.add_comm i b.kept)
    rw [List.flatMap_cons, arrivals_append, hlength, hids,
      ih fun c hc => hflow c (List.mem_cons_of_mem b hc), Truncated.packets,
      b.sent.arrivals_map_packet, b.sent.heard_range, hflow b List.mem_cons_self, observations,
      List.map_append]

/-! ## Behind a start -/

/-- The frames of `s` up to number `n` are taken in, behind the start of `l`: its own, or another for
which its own was dropped. -/
structure Led (s : Transmission) (l : Leftover) (n : ℕ) (m : PartialMessage) : Prop where
  unbroken : ∃ q qs, m.Unbroken q qs
  sequence : m.latest.header.sequence = s.sequence n
  inside : 0 < n → m.latest.header.som = false
  payload : m.payload = l.start.lead ++ ((piecesOf s.size s.remainder).take n).flatten
  conflicted : m.conflicted = true ↔ l.Conflicted

namespace Led

variable {s : Transmission} {l : Leftover} {n : ℕ} {m : PartialMessage}

theorem continues (h : Led s l n m) (id : FrameId) :
    m.latest.Continues (s.fragment (n + 1) id) := by
  left
  show m.latest.header.sequence.distanceTo (s.sequence (n + 1)) = 1
  rw [h.sequence, s.sequence_succ, Sequence.distanceTo_next]

theorem payload_append (h : Led s l n m) (id : FrameId) :
    (m.append (s.fragment (n + 1) id)).payload =
      l.start.lead ++ ((piecesOf s.size s.remainder).take (n + 1)).flatten := by
  have hpiece : (s.fragment (n + 1) id).payload = (piecesOf s.size s.remainder).getD n [] := by
    show s.pieces.getD (n + 1) [] = _
    rw [s.pieces_eq, List.getD_cons_succ]
  rw [PartialMessage.payload_append, h.payload, hpiece, List.append_assoc, List.take_add_one,
    List.flatten_append]
  cases hn : (piecesOf s.size s.remainder)[n]? <;> simp [List.getD_eq_getElem?_getD, hn]

/-- A frame that is not the last is kept. -/
theorem next (h : Led s l n m) (hn : n + 2 < s.count) (id : FrameId) :
    Step s.flow (s.fragment (n + 1) id) (some m) ⟨.buffered, []⟩
        (some (m.append (s.fragment (n + 1) id))) ∧
      Led s l (n + 1) (m.append (s.fragment (n + 1) id)) := by
  obtain ⟨q, qs, hu⟩ := h.unbroken
  have hpos := s.position_header_middle (Nat.succ_pos n) hn
  have hc := h.continues id
  exact ⟨hu.step_append _ hpos hc, ⟨q, _, hu.append hpos hc⟩, rfl, fun _ => rfl,
    h.payload_append id, h.conflicted⟩

/-- The last frame completes the message, with what the start carries in front. -/
theorem finish (h : Led s l n m) (hn : n + 2 = s.count) (id : FrameId) :
    ∃ message, Step s.flow (s.fragment (n + 1) id) (some m) ⟨.completed message, []⟩ none ∧
      message.payload = l.start.lead ++ s.remainder ∧
      (message.conflicted = true ↔ l.Conflicted) := by
  obtain ⟨q, qs, hu⟩ := h.unbroken
  have hpos := s.position_header_last (Nat.succ_pos n) hn
  refine ⟨_, hu.step_complete s.flow hpos (h.continues id), ?_, h.conflicted⟩
  have hcount : s.pieces.length = n + 2 := hn.symm
  rw [s.pieces_eq, List.length_cons, Nat.add_right_cancel_iff] at hcount
  show (m.append _).payload = _
  rw [h.payload_append id, ← hcount, List.take_length, flatten_piecesOf s.size_pos]

end Led

/-! ## What is left over -/

/-- What is pending when the start of `left` and nothing else is left over, or when no start is. -/
inductive Leaves : Option Leftover → Option PartialMessage → Prop
  | nothing : Leaves none none
  | inside {m : PartialMessage} (h : m.latest.header.som = false) : Leaves none (some m)
  | lone {l : Leftover} {m : PartialMessage} {q : Fragment} (hu : m.Unbroken q [])
      (hq : q.header.sequence = l.start.sequence 0) (hp : q.payload = l.start.lead)
      (hc : m.conflicted = true ↔ l.Conflicted) : Leaves (some l) (some m)

namespace Leaves

variable {s : Transmission} {l : Leftover} {left : Option Leftover}
  {pending : Option PartialMessage} {m : PartialMessage}

/-- A start that is left over leads whatever message has its sequence number. -/
theorem led (h : Leaves (some l) (some m)) (hs : l.start.sequence 0 = s.sequence 0) :
    Led s l 0 m := by
  cases h with
  | @lone _ _ q hu hq hp hc =>
    refine ⟨⟨q, [], hu⟩, ?_, fun h0 => absurd h0 (Nat.lt_irrefl 0), ?_, hc⟩
    · rw [hu.latest_eq, hq, hs]
    · rw [PartialMessage.payload, hu.fragments]
      simp [hp]

/-- A start of message that begins a message leaves itself. -/
theorem start (hcount : 1 < s.count) (id : FrameId) :
    Leaves (some ⟨s, []⟩) (some (.start (s.fragment 0 id))) :=
  .lone (PartialMessage.unbroken_start (s.position_header_first hcount)) rfl
    (s.payload_fragment_zero id) (by simp [PartialMessage.start, Leftover.Conflicted])

/-- A start of message is dropped if the start that is left over has the same sequence number. -/
theorem drop (h : Leaves (some l) pending) (hs : l.start.sequence 0 = s.sequence 0)
    (hcount : 1 < s.count) (id : FrameId) :
    ∃ m, Step s.flow (s.fragment 0 id) pending ⟨.buffered, [s.copyOf l.start]⟩ (some m) ∧
      Leaves (some ⟨l.start, l.dropped ++ [s]⟩) (some m) := by
  have hpos := s.position_header_first hcount
  have hne : (s.header 0).position ≠ .single := by simp [hpos]
  cases h with
  | @lone _ m q hu hq hp hc =>
    have hr : (s.fragment 0 id).repeats m.latest = true := by
      obtain ⟨hsom, heom⟩ := Header.position_eq_first.1 hpos
      obtain ⟨hsom', heom'⟩ := Header.position_eq_first.1 hu.first
      rw [hu.latest_eq, Fragment.repeats_iff, hq, hsom', heom']
      exact ⟨hs.symm, hsom, heom⟩
    have hpayload : (s.fragment 0 id).payload = m.latest.payload ↔ s.lead = l.start.lead := by
      rw [s.payload_fragment_zero, hu.latest_eq, hp]
    unfold Transmission.copyOf
    by_cases hsame : s.lead = l.start.lead
    · rw [if_pos hsame]
      refine ⟨_, .repeated hne hr (hpayload.2 hsame), .lone (hu.touch id m.conflicted) hq hp ?_⟩
      rw [Leftover.conflicted_concat, ← hc]
      simp [hsame]
    · rw [if_neg hsame]
      refine ⟨_, .conflicting hne hr (hsame ∘ hpayload.1), .lone (hu.touch id true) hq hp ?_⟩
      rw [Leftover.conflicted_concat]
      simp [hsame]

/-- A start of message begins a message, unless the start that is left over has the same sequence
number: then that one stays. -/
theorem begin (h : Leaves left pending) (hcount : 1 < s.count) (id : FrameId) :
    ∃ anomalies m, Step s.flow (s.fragment 0 id) pending ⟨.buffered, anomalies⟩ (some m) ∧
      Leaves (some (s.begun left)) (some m) := by
  have hpos := s.position_header_first hcount
  cases h with
  | nothing => exact ⟨_, _, .opened hpos, start hcount id⟩
  | @inside m hsom =>
    have hr : (s.fragment 0 id).repeats m.latest = false := by
      refine s.repeats_fragment_zero hcount fun hf => ?_
      rw [hf.1] at hsom
      cases hsom
    exact ⟨_, _, .restarted hpos hr, start hcount id⟩
  | @lone l m q hu hq hp hc =>
    by_cases hs : l.start.sequence 0 = s.sequence 0
    · obtain ⟨m', hstep, hleaves⟩ := (lone hu hq hp hc).drop hs hcount id
      rw [Transmission.begun_of_eq hs]
      exact ⟨_, m', hstep, hleaves⟩
    · have hr : (s.fragment 0 id).repeats m.latest = false := by
        refine s.repeats_fragment_zero hcount fun hf => hs ?_
        rw [← hq, ← hu.latest_eq]
        exact hf.2.2
      rw [Transmission.begun_of_ne hs]
      exact ⟨_, _, .restarted hpos hr, start hcount id⟩

end Leaves

/-! ## One message after the other -/

namespace Leaves

variable {s : Transmission} {left : Option Leftover} {pending : Option PartialMessage}

/-- A message in one frame changes nothing and completes nothing. -/
theorem run_single (h : Leaves left pending) (hone : s.count = 1) (ids : ℕ → FrameId) :
    Leaves left (FlowAction.run s.flow pending ((s.arriving ids 1).map .ingest)) ∧
    ∀ e ∈ FlowAction.log s.flow pending ((s.arriving ids 1).map .ingest),
      e.result.outcome = .single s.message := by
  have hstep : Step s.flow (s.fragment 0 (ids 0)) pending _ pending := s.step_single hone (ids 0)
  rw [s.arriving_one, List.map_singleton, FlowAction.log_singleton, FlowAction.run_cons,
    FlowAction.run_nil, FlowAction.apply, hstep.ingestOne_eq]
  refine ⟨h, fun e he => ?_⟩
  rw [List.mem_singleton.1 he]

/-- All frames but the last are kept, behind the start of the message or the one that is left over. -/
theorem run_arriving (h : Leaves left pending) (ids : ℕ → FrameId) {n : ℕ} (hn : n + 1 < s.count) :
    (∃ m, FlowAction.run s.flow pending ((s.arriving ids (n + 1)).map .ingest) = some m ∧
      Led s (s.begun left) n m ∧ (n = 0 → Leaves (some (s.begun left)) (some m))) ∧
    ∀ e ∈ FlowAction.log s.flow pending ((s.arriving ids (n + 1)).map .ingest),
      e.result.outcome = .buffered := by
  induction n with
  | zero =>
    obtain ⟨anomalies, m, hstep, hleaves⟩ := h.begin hn (ids 0)
    rw [s.arriving_one, List.map_singleton, FlowAction.log_singleton, FlowAction.run_cons,
      FlowAction.run_nil, FlowAction.apply, hstep.ingestOne_eq]
    refine ⟨⟨m, rfl, hleaves.led (Transmission.sequence_begun left), fun _ => hleaves⟩,
      fun e he => ?_⟩
    rw [List.mem_singleton.1 he]
  | succ n ih =>
    obtain ⟨⟨m, hrun, hled, -⟩, hlog⟩ := ih (by omega)
    obtain ⟨hstep, hled'⟩ := hled.next hn (ids (n + 1))
    rw [s.arriving_succ, List.map_append, List.map_singleton, FlowAction.run_concat_ingest,
      FlowAction.log_concat_ingest, hrun, hstep.ingestOne_eq]
    refine ⟨⟨_, rfl, hled', fun h0 => absurd h0 (Nat.succ_ne_zero n)⟩, fun e he => ?_⟩
    rcases List.mem_append.1 he with he | he
    · exact hlog e he
    · rw [List.mem_singleton.1 he]

/-- All frames together complete the message with the last of them, and nothing is left over. -/
theorem run_count (h : Leaves left pending) (ids : ℕ → FrameId) (hcount : 2 ≤ s.count) :
    FlowAction.run s.flow pending ((s.arriving ids s.count).map .ingest) = none ∧
    ∃ entries message, entries.length + 1 = s.count ∧
      FlowAction.log s.flow pending ((s.arriving ids s.count).map .ingest) = entries ++
        [⟨s.flow, s.fragment (s.count - 1) (ids (s.count - 1)), ⟨.completed message, []⟩⟩] ∧
      (∀ e ∈ entries, e.result.outcome = .buffered) ∧
      message.payload = (s.begun left).start.lead ++ s.remainder ∧
      (message.conflicted = true ↔ (s.begun left).Conflicted) := by
  obtain ⟨n, hn⟩ : ∃ n, s.count = n + 2 := ⟨s.count - 2, by omega⟩
  obtain ⟨⟨m, hrun, hled, -⟩, hlog⟩ := h.run_arriving ids (s := s) (n := n) (by omega)
  obtain ⟨message, hstep, hpayload, hconflicted⟩ := hled.finish hn.symm (ids (n + 1))
  rw [hn, s.arriving_succ, List.map_append, List.map_singleton, FlowAction.run_concat_ingest,
    FlowAction.log_concat_ingest, hrun, hstep.ingestOne_eq]
  refine ⟨rfl, _, message, ?_, rfl, hlog, hpayload, hconflicted⟩
  rw [FlowAction.length_log_ingest, s.length_arriving]

/-- What arrives of a message leaves what `Truncated.leave` tells. -/
theorem run_truncated (h : Leaves left pending) (b : Truncated) (ids : ℕ → FrameId) :
    Leaves (b.leave left)
      (FlowAction.run b.sent.flow pending ((b.sent.arriving ids b.kept).map .ingest)) := by
  have hpos := b.kept_pos
  have hle := b.kept_le
  unfold Truncated.leave
  rw [b.sent.length_frames] at hle ⊢
  by_cases hone : b.sent.count = 1
  · have hkept : b.kept = 1 := by omega
    rw [if_pos hone, hkept]
    exact (h.run_single hone ids).1
  · rw [if_neg hone]
    by_cases hwhole : b.kept = b.sent.count
    · rw [if_neg (by omega), hwhole, (h.run_count ids (s := b.sent) (by omega)).1]
      exact .nothing
    · obtain ⟨n, hn⟩ : ∃ n, b.kept = n + 1 := ⟨b.kept - 1, by omega⟩
      obtain ⟨⟨m, hrun, hled, hlone⟩, -⟩ := h.run_arriving ids (s := b.sent) (n := n) (by omega)
      rw [hn, hrun]
      by_cases h0 : n = 0
      · rw [if_pos (by omega)]
        exact hlone h0
      · rw [if_neg (by omega)]
        exact .inside (hled.inside (by omega))

/-- Of the frames that arrive of a message, none completes a message but the last, and this if no
frame is lost. -/
theorem completed_of_truncated (h : Leaves left pending) (b : Truncated) (ids : ℕ → FrameId) {j : ℕ}
    {e : Entry} {m : Message}
    (he : (FlowAction.log b.sent.flow pending
      ((b.sent.arriving ids b.kept).map .ingest))[j]? = some e)
    (hm : e.result.outcome = .completed m) :
    b.Whole ∧ 2 ≤ b.sent.count ∧ j + 1 = b.kept ∧
      m.payload = (b.sent.begun left).start.lead ++ b.sent.remainder ∧
      (m.conflicted = true ↔ (b.sent.begun left).Conflicted) := by
  have hpos := b.kept_pos
  have hle := b.kept_le
  unfold Truncated.Whole
  rw [b.sent.length_frames] at hle ⊢
  by_cases hone : b.sent.count = 1
  · have hkept : b.kept = 1 := by omega
    rw [hkept] at he
    rw [(h.run_single hone ids).2 e (List.mem_of_getElem? he)] at hm
    cases hm
  · by_cases hwhole : b.kept = b.sent.count
    · obtain ⟨-, entries, message, hlength, hlog, hbuffered, hmessage⟩ :=
        h.run_count ids (s := b.sent) (by omega)
      rw [hwhole, hlog, List.getElem?_append] at he
      split at he
      · rw [hbuffered e (List.mem_of_getElem? he)] at hm
        cases hm
      · obtain ⟨hj, rfl⟩ := List.getElem?_eq_some_iff.1 he
        simp only [List.length_singleton] at hj
        simp only [List.getElem_singleton, Outcome.completed.injEq] at hm
        rw [← hm]
        exact ⟨hwhole, by omega, by omega, hmessage⟩
    · obtain ⟨n, hn⟩ : ∃ n, b.kept = n + 1 := ⟨b.kept - 1, by omega⟩
      rw [hn] at he
      rw [(h.run_arriving ids (s := b.sent) (by omega)).2 e (List.mem_of_getElem? he)] at hm
      cases hm

/-- If no frame is lost of a message in several frames, the last of them completes one. -/
theorem exists_completed (h : Leaves left pending) (ids : ℕ → FrameId) (hcount : 2 ≤ s.count) :
    ∃ e m, (FlowAction.log s.flow pending
        ((s.arriving ids s.count).map .ingest))[s.count - 1]? = some e ∧
      e.result.outcome = .completed m := by
  obtain ⟨-, entries, message, hlength, hlog, -⟩ := h.run_count ids hcount
  rw [hlog, ← hlength, Nat.add_sub_cancel, List.getElem?_concat_length]
  exact ⟨_, message, rfl, rfl⟩

/-- The start of a message is answered first. -/
theorem getElem?_log_zero (flow : Flow) (pending : Option PartialMessage) (b : Truncated)
    (ids : ℕ → FrameId) :
    (FlowAction.log flow pending ((b.sent.arriving ids b.kept).map .ingest))[0]? =
      some ⟨flow, b.sent.fragment 0 (ids 0),
        (ingestOne flow pending (b.sent.fragment 0 (ids 0))).1⟩ := by
  obtain ⟨n, hn⟩ : ∃ n, b.kept = n + 1 := ⟨b.kept - 1, by have := b.kept_pos; omega⟩
  rw [hn, Transmission.arriving, List.range_succ_eq_map]
  rfl

/-- Behind all the messages, what `leftover` tells is left over. -/
theorem run_observations {flow : Flow} {bs : List Truncated} (hflow : ∀ b ∈ bs, b.sent.flow = flow)
    (ids : ℕ → FrameId) :
    Leaves (leftover bs) (FlowAction.run flow none ((observations bs ids).map .ingest)) := by
  induction bs using List.reverseRecOn with
  | nil => exact .nothing
  | append_singleton bs b ih =>
    have hbs := ih fun c hc => hflow c (List.mem_append_left [b] hc)
    obtain rfl := hflow b (List.mem_append_right bs (List.mem_singleton_self b))
    rw [leftover_concat, observations_append, List.map_append, FlowAction.run_append, observations,
      observations, List.append_nil]
    exact hbs.run_truncated b _

end Leaves

/-- What the frames of a message in the middle lead to. -/
theorem getElem?_log_observations (flow : Flow) (pending : Option PartialMessage)
    (before after : List Truncated) (b : Truncated) (ids : ℕ → FrameId) {j : ℕ} (hj : j < b.kept) :
    (FlowAction.log flow pending
        ((observations (before ++ b :: after) ids).map .ingest))[arrived before + j]? =
      (FlowAction.log flow (FlowAction.run flow pending ((observations before ids).map .ingest))
        ((b.sent.arriving (fun i => ids (arrived before + i)) b.kept).map .ingest))[j]? := by
  have hbefore := FlowAction.length_log_ingest flow pending (observations before ids)
  rw [length_observations] at hbefore
  rw [observations_append, observations, List.map_append, FlowAction.log_append, List.map_append,
    FlowAction.log_append, ← hbefore, List.getElem?_append_right (Nat.le_add_right _ _),
    Nat.add_sub_cancel_left, List.getElem?_append_left]
  rwa [FlowAction.length_log_ingest, Transmission.length_arriving]

/-- **Lost ends.** Messages are sent one after the other on one flow, and the last frames of any of
them are lost. The frames that arrive, with any numbers, are taken in by an empty reassembler. Then a
message is completed by the last frame of each message in several frames of which no frame is lost,
and by no other frame. What is completed is this message, unless the start of an earlier one is left
over with the same sequence number: then its own start is dropped as a copy of that one, which stands
in its place, and the conflict mark tells whether a start was dropped that carries something else. -/
theorem completed_after_lost_ends (flow : Flow) (bs : List Truncated)
    (hflow : ∀ b ∈ bs, b.sent.flow = flow) (ids : ℕ → FrameId) :
    ∃ packets, (bs.flatMap Truncated.frames).mapM Packet.ofFrame = .ok packets ∧
      (∀ p ∈ packets, p.flow = flow) ∧
      (∀ before b after, bs = before ++ b :: after → b.Whole → 2 ≤ b.sent.frames.length →
        ∃ e m, ((∅ : Reassembler).log (arrivals packets ids))[arrived before + (b.kept - 1)]? =
          some e ∧ e.result.outcome = .completed m) ∧
      ∀ i e m, ((∅ : Reassembler).log (arrivals packets ids))[i]? = some e →
        e.result.outcome = .completed m →
        ∃ before b after, bs = before ++ b :: after ∧ b.Whole ∧ 2 ≤ b.sent.frames.length ∧
          i + 1 = arrived (before ++ [b]) ∧
          ((∀ l, leftover before = some l → l.start.sequence 0 ≠ b.sent.sequence 0) →
            m.payload = b.sent.message ∧ m.conflicted = false) ∧
          (∀ l, leftover before = some l → l.start.sequence 0 = b.sent.sequence 0 →
            EndsInStart before l ∧
            ((∅ : Reassembler).log (arrivals packets ids))[arrived before]? =
              some ⟨flow, b.sent.fragment 0 (ids (arrived before)),
                ⟨.buffered, [b.sent.copyOf l.start]⟩⟩ ∧
            m.payload = l.start.lead ++ b.sent.remainder ∧
            (m.conflicted = true ↔ ∃ s ∈ l.dropped ++ [b.sent], s.lead ≠ l.start.lead)) := by
  refine ⟨_, mapM_ofFrame_flatMap_frames bs, ?_, ?_⟩
  · intro p hp
    obtain ⟨b, hb, hp⟩ := List.mem_flatMap.1 hp
    obtain ⟨i, -, rfl⟩ := List.mem_map.1 hp
    exact hflow b hb
  have hbegins : ∀ before b after, bs = before ++ b :: after → b.sent.flow = flow ∧
      Leaves (leftover before)
        (FlowAction.run flow none ((observations before ids).map .ingest)) := by
    rintro before b after rfl
    exact ⟨hflow b (by simp),
      Leaves.run_observations (fun c hc => hflow c (List.mem_append_left _ hc)) ids⟩
  rw [arrivals_flatMap_packets hflow, Reassembler.log_ingest, Reassembler.get?_emptyCollection]
  refine ⟨?_, fun i e m he hm => ?_⟩
  · rintro before b after rfl hwhole hcount
    obtain ⟨rfl, hleaves⟩ := hbegins before b after rfl
    rw [getElem?_log_observations _ _ _ _ _ _ (by have := b.kept_pos; omega), hwhole,
      b.sent.length_frames]
    exact hleaves.exists_completed _ (by simpa using hcount)
  · obtain ⟨hi, -⟩ := List.getElem?_eq_some_iff.1 he
    rw [FlowAction.length_log_ingest, length_observations] at hi
    -- The place of the frame among all that arrive tells to which message it belongs.
    obtain ⟨before, b, after, j, rfl, hj, rfl⟩ := exists_split_of_lt_arrived hi
    obtain ⟨rfl, hleaves⟩ := hbegins before b after rfl
    rw [getElem?_log_observations _ _ _ _ _ _ hj] at he
    obtain ⟨hwhole, hcount, hlast, hpayload, hconflicted⟩ :=
      hleaves.completed_of_truncated b _ he hm
    refine ⟨before, b, after, rfl, hwhole, by rwa [b.sent.length_frames],
      by rw [arrived_concat]; omega, fun hne => ?_, fun l hl hs => ?_⟩
    · rcases b.sent.begun_cases (leftover before) with ⟨l, hl, hs, -⟩ | hbegun
      · exact absurd hs (hne l hl)
      · rw [hbegun] at hpayload hconflicted
        rw [hpayload, b.sent.lead_append_remainder, ← Bool.not_eq_true, hconflicted]
        simp [Leftover.Conflicted]
    · -- The start of `b` was answered first, and at that time the start of `l` was pending.
      rw [hl] at hleaves
      obtain ⟨m', hstep, -⟩ := hleaves.drop hs hcount (ids (arrived before))
      have hstart := getElem?_log_observations b.sent.flow none before after b ids b.kept_pos
      rw [Leaves.getElem?_log_zero, Nat.add_zero, hstep.ingestOne_eq] at hstart
      rw [hl, Transmission.begun_of_eq hs] at hpayload hconflicted
      exact ⟨endsInStart_of_leftover hl, hstart, hpayload, hconflicted⟩

namespace Transmission

/-- Nothing but the first frame arrives. -/
def startOnly (s : Transmission) : Truncated :=
  ⟨s, 1, Nat.one_pos, by rw [s.length_frames]; exact s.count_pos⟩

/-- All frames arrive. -/
def whole (s : Transmission) : Truncated :=
  ⟨s, s.frames.length, by rw [s.length_frames]; exact s.count_pos, Nat.le_refl _⟩

theorem frames_startOnly (s : Transmission) : s.startOnly.frames = s.frames.take 1 := rfl

theorem frames_whole (s : Transmission) : s.whole.frames = s.frames := List.take_length

theorem leave_startOnly {s : Transmission} (h : s.frames.length ≠ 1) (left : Option Leftover) :
    s.startOnly.leave left = some (s.begun left) :=
  (if_neg h).trans (if_pos rfl)

theorem leave_whole {s : Transmission} (h : s.frames.length ≠ 1) (left : Option Leftover) :
    s.whole.leave left = none :=
  (if_neg h).trans (if_neg h)

/-- A message in two frames, numbered 0 and 1. -/
def twoBytes (x y : UInt8) : Transmission where
  labelling := ⟨⟨8, 16⟩, 0x0b, 0⟩
  size := 1
  message := [x, y]
  size_pos := by decide
  message_ne_nil := List.cons_ne_nil _ _

theorem frames_twoBytes (x y : UInt8) : (twoBytes x y).frames =
    [[0x01, 8, 16, 0x8b, x], [0x01, 8, 16, 0x5b, y]] := by
  have hpieces : (twoBytes x y).pieces = [[x], [y]] := by
    simp [pieces, twoBytes, piecesOf]
  have hflags : Frame.packFlags true false 0 0x0b = 0x8b ∧
      Frame.packFlags false true 1 0x0b = 0x5b := by decide
  rw [frames_eq, count, hpieces]
  simp [twoBytes, Labelling.frame, Frame.build, hflags]

theorem length_frames_twoBytes (x y : UInt8) : (twoBytes x y).frames.length = 2 := by
  rw [frames_twoBytes]
  rfl

end Transmission

/-- Of the first message and the third nothing but the start arrives, of the second all. -/
def lostStarts : List Truncated :=
  [Transmission.request.startOnly, (Transmission.twoBytes 0x02 0xbb).whole,
    (Transmission.twoBytes 0x01 0xaa).startOnly]

/-- The second message is completed as it was sent, since the start left over before it has another
sequence number. Sent once more behind the third, it is not: its start has the number of that one. -/
theorem completed_behind_starts :
    ∃ packets, [[0x01, 8, 16, 0xbb, 0x01, 0xaa], [0x01, 8, 16, 0x8b, 0x02],
        [0x01, 8, 16, 0x5b, 0xbb], [0x01, 8, 16, 0x8b, 0x01], [0x01, 8, 16, 0x8b, 0x02],
        [0x01, 8, 16, 0x5b, 0xbb]].mapM Packet.ofFrame = .ok packets ∧
      (∃ e m, ((∅ : Reassembler).log (arrivals packets UInt64.ofNat))[2]? = some e ∧
        e.result.outcome = .completed m ∧ m.payload = [0x02, 0xbb] ∧ m.conflicted = false) ∧
      (((∅ : Reassembler).log (arrivals packets UInt64.ofNat))[4]?.map Entry.result =
        some ⟨.buffered, [.overlapConflict]⟩) ∧
      ∃ e m, ((∅ : Reassembler).log (arrivals packets UInt64.ofNat))[5]? = some e ∧
        e.result.outcome = .completed m ∧ m.payload = [0x01, 0xbb] ∧ m.conflicted = true := by
  obtain ⟨packets, hread, -, hexists, hcompleted⟩ := completed_after_lost_ends
    Transmission.request.flow (lostStarts ++ [(Transmission.twoBytes 0x02 0xbb).whole]) (by decide)
    UInt64.ofNat
  have hrequest : Transmission.request.frames.length ≠ 1 := by
    rw [Transmission.length_frames_request]
    decide
  have htwo (x y : UInt8) : (Transmission.twoBytes x y).frames.length = 2 :=
    Transmission.length_frames_twoBytes x y
  have hkept : (Transmission.twoBytes 0x02 0xbb).whole.kept = 2 := htwo 0x02 0xbb
  have hfirst : arrived [Transmission.request.startOnly] = 1 := arrived_cons _ []
  have hstarts : arrived lostStarts = 4 := by
    rw [lostStarts, arrived_cons, arrived_cons, arrived_cons, hkept]
    rfl
  refine ⟨packets, ?_, ?_, ?_⟩
  · rw [← hread]
    simp [lostStarts, Transmission.frames_startOnly, Transmission.frames_whole,
      Transmission.frames_request, Transmission.frames_twoBytes]
  · obtain ⟨e, m, he, hm⟩ :=
      hexists [Transmission.request.startOnly] _ _ rfl rfl (htwo 0x02 0xbb).ge
    rw [hfirst, hkept] at he
    obtain ⟨before, b, after, hbs, -, -, hlast, hsent, -⟩ := hcompleted _ e m he hm
    change [Transmission.request.startOnly] ++ (Transmission.twoBytes 0x02 0xbb).whole :: _ = _ at hbs
    obtain ⟨rfl, rfl⟩ := split_unique hbs (by rw [← hlast, arrived_concat, hfirst, hkept])
    refine ⟨e, m, he, hm, hsent fun l hl => ?_⟩
    obtain rfl := Option.some.inj ((Transmission.leave_startOnly hrequest none).symm.trans hl)
    decide
  · obtain ⟨e, m, he, hm⟩ := hexists lostStarts _ [] rfl rfl (htwo 0x02 0xbb).ge
    rw [hstarts, hkept] at he
    obtain ⟨before, b, after, hbs, -, -, hlast, -, hdropped⟩ := hcompleted _ e m he hm
    obtain ⟨rfl, rfl⟩ := split_unique hbs (by rw [← hlast, arrived_concat, hstarts, hkept])
    have hleft : leftover lostStarts = some ⟨.twoBytes 0x01 0xaa, []⟩ := by
      show Truncated.leave _ (Truncated.leave _ _) = _
      rw [Transmission.leave_whole (by simp [htwo]), Transmission.leave_startOnly (by simp [htwo])]
      rfl
    obtain ⟨-, hstart, hpayload, hconflicted⟩ := hdropped _ hleft (by decide)
    rw [hstarts] at hstart
    refine ⟨?_, e, m, he, hm, hpayload, hconflicted.2 ⟨_, List.mem_singleton_self _, by decide⟩⟩
    rw [hstart]
    rfl

/-- Nothing but the start of the first message arrives, and all of the second. -/
def startThenWhole : List Truncated :=
  [(Transmission.twoBytes 0x01 0xaa).startOnly, (Transmission.twoBytes 0x02 0xbb).whole]

/-- The second message has the first sequence number of the first, and what is completed is neither
of them. -/
theorem completed_with_start_left_over :
    (∀ b ∈ startThenWhole, b.sent.flow = ⟨⟨8, 16⟩, .ofBits 0x0b⟩) ∧
      ∃ packets, (startThenWhole.flatMap Truncated.frames).mapM Packet.ofFrame = .ok packets ∧
        ∃ e ∈ (∅ : Reassembler).log (arrivals packets UInt64.ofNat), ∃ m,
          e.result.outcome = .completed m ∧ m.payload = [0x01, 0xbb] ∧
            ∀ b ∈ startThenWhole, m.payload ≠ b.sent.message := by
  have hframes : startThenWhole.flatMap Truncated.frames =
      [[0x01, 8, 16, 0x8b, 0x01], [0x01, 8, 16, 0x8b, 0x02], [0x01, 8, 16, 0x5b, 0xbb]] := by
    simp [startThenWhole, Transmission.frames_startOnly, Transmission.frames_whole,
      Transmission.frames_twoBytes]
  have hread : (startThenWhole.flatMap Truncated.frames).mapM Packet.ofFrame =
      .ok [⟨.ofFlags .one ⟨8, 16⟩ 0x8b, [0x01]⟩, ⟨.ofFlags .one ⟨8, 16⟩ 0x8b, [0x02]⟩,
        ⟨.ofFlags .one ⟨8, 16⟩ 0x5b, [0xbb]⟩] := by
    rw [hframes]
    rfl
  refine ⟨by decide, _, hread,
    ⟨⟨⟨8, 16⟩, .ofBits 0x0b⟩, ⟨.ofFlags .one ⟨8, 16⟩ 0x5b, [0xbb], 2⟩,
      .completed ⟨⟨⟨8, 16⟩, .ofBits 0x0b⟩, [0x01, 0xbb], 0, 2, [0, 2], true⟩, []⟩, ?_, _, rfl, rfl,
    by decide⟩
  show _ ∈ (∅ : Reassembler).log (([⟨.ofFlags .one ⟨8, 16⟩ 0x8b, [0x01], 0⟩,
    ⟨.ofFlags .one ⟨8, 16⟩ 0x8b, [0x02], 1⟩, ⟨.ofFlags .one ⟨8, 16⟩ 0x5b, [0xbb], 2⟩] :
      List Fragment).map (.ingest ⟨⟨8, 16⟩, .ofBits 0x0b⟩))
  rw [Reassembler.log_ingest, Reassembler.get?_emptyCollection]
  decide

end MctpReceiver
