import MctpReceiver.Proofs.RoundTrip
import MctpReceiver.Proofs.Transmission
import Mathlib.Algebra.Order.Floor.Div

/-!
# Frames and packets

The frames into which a message is cut are labelled byte by byte, apart from the header type.
`split_agrees_with_codec` holds the two against each other: of any message, every frame is what
writing a packet gives and is read as that packet, also where the count of the frames goes beyond what
a byte or two bits can tell. And nothing of the message is lost: the pieces are full but for the last,
and put together they are the message.
-/

namespace MctpReceiver

/-! ## Pieces -/

section Pieces

variable {α : Type} {size : Nat} {l : List α}

/-- Piece `i` begins where `i` full pieces end. -/
theorem getElem?_piecesOf (hsize : 0 < size) (i : Nat) :
    (piecesOf size l)[i]? =
      if i * size < l.length then some ((l.drop (i * size)).take size) else none := by
  fun_induction piecesOf size l generalizing i with
  | case1 l h =>
    have hl : l.length = 0 := h.resolve_left (by omega)
    rw [if_neg (by omega), List.getElem?_nil]
  | case2 l h ih =>
    cases i with
    | zero =>
      rw [if_pos (by omega), Nat.zero_mul, List.drop_zero, List.getElem?_cons_zero]
    | succ i =>
      have hmul : (i + 1) * size = size + i * size := by rw [Nat.succ_mul, Nat.add_comm]
      have hlt : i * size < l.length - size ↔ size + i * size < l.length := by omega
      rw [List.getElem?_cons_succ, ih, List.length_drop, List.drop_drop, hmul]
      simp only [hlt]

theorem length_piecesOf (hsize : 0 < size) : (piecesOf size l).length = l.length ⌈/⌉ size := by
  rw [Nat.ceilDiv_eq_add_pred_div]
  fun_induction piecesOf size l with
  | case1 l h =>
    have hl : l.length = 0 := h.resolve_left (by omega)
    rw [hl, Nat.div_eq_of_lt (by omega), List.length_nil]
  | case2 l h ih =>
    rw [List.length_cons, ih, List.length_drop, ← Nat.add_div_right _ hsize]
    by_cases hl : l.length ≤ size
    · -- a last piece, full or not, counts as one
      rw [Nat.div_eq_of_lt_le (k := 1) (by omega) (by omega),
        Nat.div_eq_of_lt_le (k := 1) (by omega) (by omega)]
    · congr 1
      omega

variable {piece : List α} {i : Nat}

theorem getElem?_piecesOf_eq_some_iff (hsize : 0 < size) :
    (piecesOf size l)[i]? = some piece ↔
      i * size < l.length ∧ (l.drop (i * size)).take size = piece := by
  rw [getElem?_piecesOf hsize, Option.ite_none_right_eq_some, Option.some.injEq]

theorem length_piece_bounds (hsize : 0 < size) (h : (piecesOf size l)[i]? = some piece) :
    1 ≤ piece.length ∧ piece.length ≤ size := by
  obtain ⟨hi, rfl⟩ := (getElem?_piecesOf_eq_some_iff hsize).1 h
  rw [List.length_take, List.length_drop]
  omega

/-- Every piece with another behind it is full. -/
theorem length_piece_eq (hsize : 0 < size) (h : (piecesOf size l)[i]? = some piece)
    (hi : i + 1 < (piecesOf size l).length) : piece.length = size := by
  obtain ⟨-, rfl⟩ := (getElem?_piecesOf_eq_some_iff hsize).1 h
  obtain ⟨hnext, -⟩ := (getElem?_piecesOf_eq_some_iff hsize).1 (List.getElem?_eq_getElem hi)
  rw [Nat.succ_mul] at hnext
  rw [List.length_take, List.length_drop]
  omega

end Pieces

/-! ## Labels -/

/-- The header of packet `i` out of `count`, as the labelling wants it. -/
structure Labelling.Labels (l : Labelling) (count i : Nat) (h : Header) : Prop where
  version : h.version = .one
  endpoints : h.endpoints = l.endpoints
  som : h.som = true ↔ i = 0
  eom : h.eom = true ↔ i + 1 = count
  sequence : h.sequence.toNat = (l.firstSequence.toNat + i) % 4
  tag : h.tag = .ofBits (l.tag.toBitVec.setWidth 4)

/-- The labelling leaves nothing of a header open. -/
theorem Labelling.Labels.unique {l : Labelling} {count i : Nat} {h h' : Header}
    (hl : l.Labels count i h) (hl' : l.Labels count i h') : h = h' := by
  rcases h with ⟨version, endpoints, som, eom, sequence, tag⟩
  rcases h' with ⟨version', endpoints', som', eom', sequence', tag'⟩
  rw [Header.mk.injEq]
  exact ⟨hl.version.trans hl'.version.symm, hl.endpoints.trans hl'.endpoints.symm,
    Bool.eq_iff_iff.2 (hl.som.trans hl'.som.symm), Bool.eq_iff_iff.2 (hl.eom.trans hl'.eom.symm),
    BitVec.eq_of_toNat_eq (hl.sequence.trans hl'.sequence.symm), hl.tag.trans hl'.tag.symm⟩

namespace Transmission

variable (s : Transmission) {i : Nat} {piece : List UInt8}

theorem labels_header (i : Nat) : s.labelling.Labels s.count i (s.header i) where
  version := rfl
  endpoints := rfl
  som := beq_iff_eq
  eom := beq_iff_eq
  sequence := BitVec.toNat_ofNat _ _
  tag := rfl

/-- The flags of a frame are the same whichever way they are packed. -/
theorem packFlags_eq_flags (i : Nat) :
    Frame.packFlags (i == 0) (i + 1 == s.count) (s.labelling.firstSequence + UInt8.ofNat i)
      s.labelling.tag = (s.header i).flags := by
  rw [← UInt8.toBitVec_inj, toBitVec_packFlags, setWidth_sequence, Header.flags]
  show _ = BitVec.ofBool _ ++ BitVec.ofBool _ ++ _ ++ (Tag.ofBits _).bits
  rw [Tag.bits_ofBits]
  rfl

/-- A frame holds the bytes of its packet. -/
theorem frame_eq_bytes (i : Nat) (piece : List UInt8) :
    s.labelling.frame s.count i piece = (⟨s.header i, piece⟩ : Packet).bytes := by
  have hone : UInt8.ofBitVec (Version.one.setWidth 8) = 0x01 := by decide
  unfold Labelling.frame Frame.build Packet.bytes Header.bytes
  rw [packFlags_eq_flags]
  show _ = UInt8.ofBitVec (Version.one.setWidth 8) :: _
  rw [hone]
  rfl

theorem getElem?_frames (h : s.pieces[i]? = some piece) :
    s.frames[i]? = some (⟨s.header i, piece⟩ : Packet).bytes := by
  rw [frames_eq, List.getElem?_mapIdx, h, Option.map_some, frame_eq_bytes]

/-- Whatever the chunks in which its frame arrives, a packet is read to its last byte. -/
theorem decode_of_frame (h : s.pieces[i]? = some piece) {σ : Type} [ByteSource σ] {source : σ}
    (hsource : ByteSource.toList source = (⟨s.header i, piece⟩ : Packet).bytes) :
    ∃ rest, Packet.decode source = .ok ⟨s.header i, piece⟩ rest ∧ ByteSource.toList rest = [] := by
  have hne : piece ≠ [] := ne_nil_of_mem_piecesOf (List.mem_of_getElem? h)
  obtain ⟨rest, hrest, hd⟩ := Packet.decode_of_bytes hsource hne
  exact ⟨rest, hd.trans (if_pos rfl), hrest⟩

end Transmission

/-- A message of no bytes takes no frames. -/
theorem Labelling.split_nil (l : Labelling) {size : Nat} (hsize : 0 < size) :
    l.split size [] = .ok [] := by
  have hpieces : piecesOf size ([] : List UInt8) = [] := by
    unfold piecesOf
    rw [dif_pos (Or.inr List.length_nil)]
  unfold split
  rw [if_neg (by omega), hpieces]
  rfl

/-- **Agreement with the codec.** A message is cut into as many frames as pieces of the size are
needed. The pieces hold all of it in order; all but the last are full, and the last is not empty. Each
frame is what writing the packet of its piece gives, under the header that the labelling wants, and is
read as this packet whatever its chunks. -/
theorem split_agrees_with_codec (l : Labelling) (size : Nat) (message : List UInt8)
    (hsize : 0 < size) :
    ∃ frames, ∃ pieces : List (List UInt8), l.split size message = .ok frames ∧
      frames.length = message.length ⌈/⌉ size ∧ pieces.length = frames.length ∧
      pieces.flatten = message ∧
      ∀ i frame piece, frames[i]? = some frame → pieces[i]? = some piece →
        (i + 1 < frames.length → piece.length = size) ∧
        (i + 1 = frames.length → 1 ≤ piece.length ∧ piece.length ≤ size) ∧
        ∃ h, l.Labels frames.length i h ∧ (⟨h, piece⟩ : Packet).encode = .ok frame ∧
          ∀ (σ : Type) [ByteSource σ] (source : σ), ByteSource.toList source = frame →
            ∃ rest, Packet.decode source = .ok ⟨h, piece⟩ rest ∧ ByteSource.toList rest = [] := by
  by_cases hne : message = []
  · refine ⟨[], [], hne ▸ l.split_nil hsize, ?_, rfl, hne.symm, ?_⟩
    · rw [hne, List.length_nil, List.length_nil, zero_ceilDiv]
    · intro i frame piece hframe
      rw [List.getElem?_nil] at hframe
      cases hframe
  · let s : Transmission := ⟨l, size, message, hsize, hne⟩
    have hcount : s.frames.length = s.pieces.length := s.length_frames
    refine ⟨s.frames, s.pieces, ?_, ?_, hcount.symm, s.flatten_pieces, ?_⟩
    · rw [s.frames_eq]
      exact s.split_eq
    · rw [hcount]
      exact length_piecesOf hsize
    · intro i frame piece hframe hpiece
      rw [s.getElem?_frames hpiece] at hframe
      obtain rfl := Option.some.inj hframe
      refine ⟨fun hi => length_piece_eq hsize hpiece (hcount ▸ hi),
        fun _ => length_piece_bounds hsize hpiece, s.header i, ?_, Packet.encode_eq _, ?_⟩
      · rw [s.length_frames]
        exact s.labels_header i
      · intro σ _ source hsource
        exact s.decode_of_frame hpiece hsource

/-- A message of 601 bytes in pieces of two: its 258th frame goes on counting where a byte has wrapped,
and of the tag only the low bits are sent. -/
theorem frame_behind_256 :
    ∃ frames, Labelling.split ⟨⟨8, 16⟩, 0xeb, 2⟩ 2 (List.replicate 601 0xaa) = .ok frames ∧
      frames.length = 301 ∧ frames[257]? = some [0x01, 8, 16, 0x3b, 0xaa, 0xaa] := by
  obtain ⟨frames, pieces, hsplit, hlength, hpieces, hflatten, hframe⟩ :=
    split_agrees_with_codec ⟨⟨8, 16⟩, 0xeb, 2⟩ 2 (List.replicate 601 0xaa) (by decide)
  rw [List.length_replicate] at hlength
  replace hlength : frames.length = 301 := hlength
  have hi : 257 < frames.length := by omega
  have hi' : 257 < pieces.length := by omega
  obtain ⟨hfull, -, h, hlabels, hencode, -⟩ := hframe 257 _ _ (List.getElem?_eq_getElem hi)
    (List.getElem?_eq_getElem hi')
  have hpiece : pieces[257] = List.replicate 2 0xaa := by
    refine List.eq_replicate_iff.2 ⟨hfull (by omega), fun b hb => ?_⟩
    have hmem : b ∈ pieces.flatten := List.mem_flatten.2 ⟨_, List.getElem_mem hi', hb⟩
    rw [hflatten] at hmem
    exact List.eq_of_mem_replicate hmem
  have hheader : h = ⟨.one, ⟨8, 16⟩, false, false, 3, ⟨true, 3⟩⟩ := by
    rw [hlength] at hlabels
    exact hlabels.unique ⟨rfl, rfl, by decide, by decide, by decide, by decide⟩
  rw [hpiece, hheader] at hencode
  refine ⟨frames, hsplit, hlength, ?_⟩
  rw [List.getElem?_eq_getElem hi]
  exact congrArg some (Except.ok.inj hencode).symm

end MctpReceiver
