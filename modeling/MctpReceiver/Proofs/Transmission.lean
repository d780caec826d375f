import MctpReceiver.Fragmentation
import MctpReceiver.Packet.Decode
import Mathlib.Data.List.Basic
import Mathlib.Data.List.Forall2

/-!
# Messages as they are sent

A `Transmission` is a message with its labels and the size of its pieces: what a sender needs to cut
it into frames. `Transmission.frames` are the frames that `Labelling.split` gives, and
`Transmission.packets` says what each of them is in terms of packet headers. The two are put together
by different means, bytes here and header fields there; `mapM_ofFrame_frames` says that reading the
frames gives the packets.
-/

namespace MctpReceiver

/-! ## Pieces -/

section Pieces

variable {α : Type} {size : Nat} {l : List α}

theorem flatten_piecesOf (hsize : 0 < size) : (piecesOf size l).flatten = l := by
  fun_induction piecesOf size l with
  | case1 l h =>
    have hl : l.length = 0 := h.resolve_left (by omega)
    rw [List.length_eq_zero_iff.1 hl, List.flatten_nil]
  | case2 l h ih => rw [List.flatten_cons, ih, List.take_append_drop]

theorem ne_nil_of_mem_piecesOf {piece : List α} (h : piece ∈ piecesOf size l) : piece ≠ [] := by
  fun_induction piecesOf size l with
  | case1 => simp at h
  | case2 l hl ih =>
    rcases List.mem_cons.1 h with rfl | h
    · intro hnil
      have := congrArg List.length hnil
      rw [List.length_take, List.length_nil] at this
      omega
    · exact ih h

end Pieces

/-! ## The flags byte -/

theorem toBitVec_packFlags (som eom : Bool) (sequence tag : UInt8) :
    (Frame.packFlags som eom sequence tag).toBitVec =
      BitVec.ofBool som ++ BitVec.ofBool eom ++ sequence.toBitVec.setWidth 2 ++
        tag.toBitVec.setWidth 4 := by
  have hseq : ∀ b : BitVec 8, b &&& 3 = (b.setWidth 2).setWidth 8 := by decide
  have htag : ∀ b : BitVec 8, b &&& 15 = (b.setWidth 4).setWidth 8 := by decide
  have hpack : ∀ (som eom : Bool) (s : BitVec 2) (t : BitVec 4),
      (s.setWidth 8 <<< 4 ||| t.setWidth 8 ||| (if som then 128 else 0) |||
        (if eom then 64 else 0) : BitVec 8) =
          BitVec.ofBool som ++ BitVec.ofBool eom ++ s ++ t := by decide
  rw [← hpack, ← hseq, ← htag]
  unfold Frame.packFlags
  cases som <;> cases eom <;> rfl

theorem ofFlags_packFlags (v : Version) (e : Ends EndpointId) (som eom : Bool)
    (sequence tag : UInt8) :
    Header.ofFlags v e (Frame.packFlags som eom sequence tag) =
      ⟨v, e, som, eom, sequence.toBitVec.setWidth 2, .ofBits (tag.toBitVec.setWidth 4)⟩ := by
  have h := Header.ofFlags_flags
    ⟨v, e, som, eom, sequence.toBitVec.setWidth 2, .ofBits (tag.toBitVec.setWidth 4)⟩
  rw [Header.flags, Tag.bits_ofBits, ← toBitVec_packFlags] at h
  exact h

/-! ## Reading a frame -/

theorem ofFrame_build (e : Ends EndpointId) (flags : UInt8) {payload : List UInt8}
    (hne : payload ≠ []) :
    Packet.ofFrame (Frame.build e flags payload) = .ok ⟨.ofFlags .one e flags, payload⟩ := by
  have hlist : ByteSource.toList (Frame.build e flags payload) =
      0x01 :: e.destination :: e.source :: flags :: payload := rfl
  have hv : Version.ofByte 0x01 = .one := by decide
  obtain ⟨rest, hrest, hheader⟩ := Header.decode_of_cons hlist hne
  rw [hv, if_pos (by decide)] at hheader
  obtain ⟨_, hpacket, -⟩ := Packet.decode_of_ok hheader
  rw [hrest] at hpacket
  exact Decoder.run_of_ok hpacket

theorem mapM_mapIdx_ok {α β γ ε : Type} {f : β → Except ε γ} {l : List α} {g : Nat → α → β}
    {h : Nat → α → γ} (hf : ∀ i, ∀ x ∈ l, f (g i x) = .ok (h i x)) :
    (l.mapIdx g).mapM f = .ok (l.mapIdx h) := by
  induction l generalizing g h with
  | nil => rfl
  | cons x l ih =>
    have hrest := ih (g := fun i => g (i + 1)) (h := fun i => h (i + 1))
      fun i y hy => hf (i + 1) y (List.mem_cons_of_mem x hy)
    rw [List.mapIdx_cons, List.mapIdx_cons, List.mapM_cons, hf 0 x List.mem_cons_self, hrest]
    rfl

/-- Reading a list succeeds if it succeeds item by item. -/
theorem mapM_ok_of_forall₂ {α β ε : Type} {f : α → Except ε β} {xs : List α} {ys : List β}
    (h : List.Forall₂ (fun x y => f x = .ok y) xs ys) : xs.mapM f = .ok ys := by
  induction h with
  | nil => rfl
  | cons hxy _ ih =>
    rw [List.mapM_cons, hxy, ih]
    rfl

/-! ## Transmissions -/

/-- A message with what its sender needs to cut it into frames. -/
structure Transmission where
  labelling : Labelling
  /-- The number of bytes in a piece. -/
  size : Nat
  message : List UInt8
  size_pos : 0 < size
  message_ne_nil : message ≠ []

namespace Transmission

variable (s : Transmission)

/-- The frames of the message. -/
def frames : List (List UInt8) :=
  match s.labelling.split s.size s.message with
  | .ok frames => frames
  | .error _ => []

def pieces : List (List UInt8) := piecesOf s.size s.message

def count : Nat := s.pieces.length

/-- The flow that the labels give: the endpoints and the low four bits of the tag. -/
def flow : Flow := ⟨s.labelling.endpoints, .ofBits (s.labelling.tag.toBitVec.setWidth 4)⟩

/-- The sequence number of frame `i`. -/
def sequence (i : Nat) : Sequence := BitVec.ofNat 2 (s.labelling.firstSequence.toNat + i)

/-- The header of frame `i`. -/
def header (i : Nat) : Header where
  version := .one
  endpoints := s.flow.endpoints
  som := i == 0
  eom := i + 1 == s.count
  sequence := s.sequence i
  tag := s.flow.tag

/-- The packets in the frames. -/
def packets : List Packet := s.pieces.mapIdx fun i piece => ⟨s.header i, piece⟩

theorem split_eq : s.labelling.split s.size s.message =
    .ok (s.pieces.mapIdx (s.labelling.frame s.count)) := by
  unfold Labelling.split
  rw [if_neg (by have := s.size_pos; omega)]
  rfl

theorem frames_eq : s.frames = s.pieces.mapIdx (s.labelling.frame s.count) := by
  unfold frames
  rw [split_eq]

theorem flatten_pieces : s.pieces.flatten = s.message := flatten_piecesOf s.size_pos

theorem count_pos : 0 < s.count := by
  refine List.length_pos_iff.2 fun h => s.message_ne_nil ?_
  rw [← flatten_pieces, h, List.flatten_nil]

@[simp] theorem length_frames : s.frames.length = s.count := by simp [frames_eq, count]

@[simp] theorem length_packets : s.packets.length = s.count := by simp [packets, count]

@[simp] theorem flow_header (i : Nat) : (s.header i).flow = s.flow := rfl

/-- The sequence number is counted in bytes and sent in two bits. -/
theorem setWidth_sequence (i : Nat) :
    (s.labelling.firstSequence + UInt8.ofNat i).toBitVec.setWidth 2 = s.sequence i := by
  apply BitVec.eq_of_toNat_eq
  simp only [sequence, BitVec.toNat_setWidth, UInt8.toNat_toBitVec, UInt8.toNat_add,
    UInt8.toNat_ofNat', BitVec.toNat_ofNat]
  omega

theorem ofFrame_frame (i : Nat) {piece : List UInt8} (h : piece ≠ []) :
    Packet.ofFrame (s.labelling.frame s.count i piece) = .ok ⟨s.header i, piece⟩ := by
  unfold Labelling.frame
  rw [ofFrame_build _ _ h, ofFlags_packFlags, setWidth_sequence]
  rfl

/-- Reading the frames gives the packets. -/
theorem mapM_ofFrame_frames : s.frames.mapM Packet.ofFrame = .ok s.packets := by
  rw [frames_eq]
  exact mapM_mapIdx_ok fun i piece hp => s.ofFrame_frame i (ne_nil_of_mem_piecesOf hp)

/-- The packet in frame `i`. -/
def packet (i : Nat) : Packet := ⟨s.header i, s.pieces.getD i []⟩

theorem ofFrame_getElem {i : Nat} (h : i < s.frames.length) :
    Packet.ofFrame s.frames[i] = .ok (s.packet i) := by
  have hi : i < s.pieces.length := by simpa [count] using h
  simp only [frames_eq, List.getElem_mapIdx]
  rw [s.ofFrame_frame i (ne_nil_of_mem_piecesOf (List.getElem_mem hi))]
  simp [packet, hi]

/-! ## A request and its answer -/

/-- A request in three frames, numbered 3, 0 and 1. -/
def request : Transmission where
  labelling := ⟨⟨8, 16⟩, 0x0b, 3⟩
  size := 2
  message := [0x01, 0xaa, 0xbb, 0xcc, 0xdd]
  size_pos := by decide
  message_ne_nil := by decide

/-- The answer in one frame, on the flow on which it is expected. -/
def answer : Transmission where
  labelling := ⟨⟨16, 8⟩, 0x03, 0⟩
  size := 64
  message := [0x01, 0xee]
  size_pos := by decide
  message_ne_nil := by decide

theorem frames_request : request.frames =
    [[0x01, 8, 16, 0xbb, 0x01, 0xaa], [0x01, 8, 16, 0x0b, 0xbb, 0xcc],
      [0x01, 8, 16, 0x5b, 0xdd]] := by
  have hpieces : request.pieces = [[0x01, 0xaa], [0xbb, 0xcc], [0xdd]] := by
    simp [pieces, request, piecesOf]
  rw [frames_eq, count, hpieces]
  decide

theorem length_frames_request : request.frames.length = 3 := by
  rw [frames_request]
  rfl

end Transmission

end MctpReceiver
