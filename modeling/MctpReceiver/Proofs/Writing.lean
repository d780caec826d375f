import MctpReceiver.Proofs.RoundTrip

/-!
# Whole writes

`writes_whole_or_nothing`: whatever a sink holds and however much room it has, a header or a packet is
put behind what is there if there is room for all of it, and otherwise the sink stays as it is. The
bytes are always the same, as many as the encoded length says.

A packet is written in two parts, and each part looks for room by itself. Room for the whole is room
for the header and, once that is written, for the payload, so that neither part is ever refused or cut
short once the packet is begun, and nothing is put where there is no room.
-/

namespace MctpReceiver

open ByteSink

/-! ## Sinks -/

namespace ByteSink

variable {σ : Type} [ByteSink σ] {s : σ} {xs ys : List UInt8}

theorem accepts_of_room {room : Nat} (h : ByteSink.room s = some room) (n : Nat) :
    accepts s n = true ↔ n ≤ room := by
  rw [accepts, h, Option.all_some, decide_eq_true_eq]

theorem accepts_of_room_none (h : room s = none) (n : Nat) : accepts s n = true := by
  rw [accepts, h, Option.all_none]

/-- Putting two pieces is putting both in one. -/
theorem written_put_put (h : accepts s (xs ++ ys).length = true) :
    written (put (put s xs) ys) = written s ++ (xs ++ ys) := by
  rw [List.length_append] at h
  rw [written_put _ _ (accepts_put h), written_put _ _ (accepts_of_le (Nat.le_add_right _ _) h),
    List.append_assoc]

theorem room_put_put (h : accepts s (xs ++ ys).length = true) :
    room (put (put s xs) ys) = (room s).map (· - (xs ++ ys).length) := by
  rw [List.length_append] at h
  rw [room_put _ _ (accepts_put h), room_put _ _ (accepts_of_le (Nat.le_add_right _ _) h),
    Option.map_map, List.length_append]
  congr 1
  funext room
  exact Nat.sub_sub ..

end ByteSink

/-! ## Writers -/

namespace Encoder

/-- The encoder puts the bytes behind what a sink holds if there is room for all of them, and leaves
the sink as it is otherwise. -/
structure WritesWhole {σ : Type} [ByteSink σ] (e : Encoder σ Unit) (bytes : List UInt8) : Prop where
  refused : ∀ s room, ByteSink.room s = some room → room < bytes.length →
    e s = .error (.refused .insufficientRoom) s
  fits : ∀ s room, ByteSink.room s = some room → bytes.length ≤ room →
    ∃ s', e s = .ok () s' ∧ written s' = written s ++ bytes ∧
      ByteSink.room s' = some (room - bytes.length)
  grows : ∀ s, ByteSink.room s = none →
    ∃ s', e s = .ok () s' ∧ written s' = written s ++ bytes ∧ ByteSink.room s' = none

variable {σ : Type} [ByteSink σ] {e : Encoder σ Unit} {bytes : List UInt8}

theorem writesWhole_of_eq (after : σ → σ)
    (h : ∀ s, e s = if accepts s bytes.length then .ok () (after s)
      else .error (.refused .insufficientRoom) s)
    (hafter : ∀ s, accepts s bytes.length = true →
      written (after s) = written s ++ bytes ∧ room (after s) = (room s).map (· - bytes.length)) :
    e.WritesWhole bytes where
  refused := by
    intro s room hroom hlt
    rw [h, if_neg ((accepts_of_room hroom _).not.2 (Nat.not_le_of_lt hlt))]
  fits := by
    intro s room hroom hle
    have ha := (accepts_of_room hroom _).2 hle
    obtain ⟨hwritten, hrest⟩ := hafter s ha
    exact ⟨after s, by rw [h, if_pos ha], hwritten, by rw [hrest, hroom, Option.map_some]⟩
  grows := by
    intro s hroom
    have ha := accepts_of_room_none hroom bytes.length
    obtain ⟨hwritten, hrest⟩ := hafter s ha
    exact ⟨after s, by rw [h, if_pos ha], hwritten, by rw [hrest, hroom, Option.map_none]⟩

end Encoder

section Writers

variable {σ : Type} [ByteSink σ]

theorem Header.writesWhole (h : Header) : (h.encodeTo : Encoder σ Unit).WritesWhole h.bytes :=
  Encoder.writesWhole_of_eq (put · h.bytes) h.encodeTo_eq fun s ha =>
    ⟨written_put s _ ha, room_put s _ ha⟩

theorem Packet.writesWhole (p : Packet) : (p.encodeTo : Encoder σ Unit).WritesWhole p.bytes :=
  Encoder.writesWhole_of_eq (fun s => put (put s p.header.bytes) p.payload)
    (p.length_bytes ▸ p.encodeTo_eq) fun _ ha => ⟨written_put_put ha, room_put_put ha⟩

/-- Behind the check for the whole packet, neither the header nor the payload lacks room. -/
theorem Packet.parts_accepted (p : Packet) {s : σ} (h : accepts s p.encodedLength = true) :
    p.header.encodeTo s = .ok () (put s p.header.bytes) ∧
      accepts (put s p.header.bytes) p.payload.length = true := by
  have hheader : accepts s Header.length = true := accepts_of_le (Nat.le_add_right _ _) h
  refine ⟨?_, accepts_put h⟩
  rw [Header.encodeTo_eq, if_pos hheader]

end Writers

/-- **Whole writes.** A header of four bytes, or a packet of four and those of its payload, is written
whole or not at all, with the same bytes to every sink; and once there is room for a packet, its parts
are written without another refusal. -/
theorem writes_whole_or_nothing :
    (∀ h : Header, ∃ bytes, bytes.length = 4 ∧ h.encode = .ok bytes ∧
      ∀ (σ : Type) [ByteSink σ], (h.encodeTo : Encoder σ Unit).WritesWhole bytes) ∧
    ∀ p : Packet, ∃ bytes, bytes.length = p.encodedLength ∧
      p.encodedLength = 4 + p.payload.length ∧ p.encode = .ok bytes ∧
      ∀ (σ : Type) [ByteSink σ], (p.encodeTo : Encoder σ Unit).WritesWhole bytes ∧
        ∀ s : σ, accepts s p.encodedLength = true →
          p.header.encodeTo s = .ok () (put s p.header.bytes) ∧
            accepts (put s p.header.bytes) p.payload.length = true :=
  ⟨fun h => ⟨h.bytes, h.length_bytes, h.encode_eq, fun _ _ => h.writesWhole⟩,
    fun p => ⟨p.bytes, p.length_bytes, rfl, p.encode_eq,
      fun _ _ => ⟨p.writesWhole, fun _ hs => p.parts_accepted hs⟩⟩⟩

/-- There is room for the header and one byte of two: the buffer keeps what it held. -/
theorem header_not_left_behind :
    (⟨⟨.one, ⟨8, 16⟩, true, true, 0, ⟨true, 3⟩⟩, [0x01, 0xaa]⟩ : Packet).encodeTo
        (ByteBuffer.mk [0x99] (some 5)) =
          .error (.refused .insufficientRoom) ⟨[0x99], some 5⟩ ∧
      (⟨⟨.one, ⟨8, 16⟩, true, true, 0, ⟨true, 3⟩⟩, [0x01, 0xaa]⟩ : Packet).encodeTo
        (ByteBuffer.mk [0x99] (some 6)) =
          .ok () ⟨[0x99, 0x01, 8, 16, 0xcb, 0x01, 0xaa], some 0⟩ ∧
      accepts (put (ByteBuffer.mk [0x99] (some 6))
        (⟨.one, ⟨8, 16⟩, true, true, 0, ⟨true, 3⟩⟩ : Header).bytes) 2 = true := by
  obtain ⟨bytes, -, -, hbytes, hwrites⟩ := writes_whole_or_nothing.2
    ⟨⟨.one, ⟨8, 16⟩, true, true, 0, ⟨true, 3⟩⟩, [0x01, 0xaa]⟩
  cases hbytes
  obtain ⟨hwhole, hparts⟩ := hwrites ByteBuffer
  refine ⟨hwhole.refused _ 5 rfl (by decide), ?_, (hparts ⟨[0x99], some 6⟩ (by decide)).2⟩
  obtain ⟨⟨written, room⟩, heq, hwritten, hroom⟩ :=
    hwhole.fits ⟨[0x99], some 6⟩ 6 rfl (by decide)
  cases hwritten
  cases hroom
  exact heq

end MctpReceiver
