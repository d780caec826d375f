import MctpReceiver.Packet.Decode
import MctpReceiver.Packet.Encode
import Mathlib.Data.List.Basic

/-!
# Writing and reading packets

What is written is read back, and what is read is written back, but for two things that only one side
knows. A reader refuses versions other than one and frames without a payload, while a writer writes
them; and a writer leaves the reserved half of the first byte zero, while a reader passes over it.
`codec_round_trips` says so for every packet, every header with something behind it, and every frame
that is a packet.
-/

namespace MctpReceiver

open ByteSource

/-! ## Headers -/

theorem Version.ofByte_setWidth (v : Version) :
    Version.ofByte (.ofBitVec (v.setWidth 8)) = v := by
  revert v; decide

theorem Header.mem_supportedVersions {v : Version} : v ∈ supportedVersions ↔ v = .one := by
  simp [supportedVersions]

namespace Header

variable {σ : Type} [ByteSource σ] {h : Header} {s s' : σ} {rest : List UInt8}

theorem encode_eq (h : Header) : h.encode = .ok h.bytes := by
  unfold encode Encoder.bytes
  rw [encodeTo_eq]
  rfl

/-- Of a header with something behind it the version decides, and all else is read as it was
written. -/
theorem decode_of_bytes (hs : toList s = h.bytes ++ rest) (hne : rest ≠ []) :
    ∃ s', toList s' = rest ∧
      Header.decode s =
        if h.version = .one then .ok h s'
        else .error (.refused (.unsupportedVersion h.version)) s := by
  obtain ⟨s', hs', hd⟩ := decode_of_cons (by simpa [bytes] using hs) hne
  refine ⟨s', hs', hd.trans ?_⟩
  simp only [Version.ofByte_setWidth, mem_supportedVersions]
  split
  · next hv => rw [ofFlags_flags]
  · rfl

/-- A header alone is not a frame. -/
theorem decode_of_bytes_alone (hs : toList s = h.bytes) :
    Header.decode s = .error (.refused (.tooShort length)) s := by
  have hlen : (toList s).length = length := by rw [hs, length_bytes]
  rw [decode_of_short (by rw [hlen, minFrameLength]; omega), hlen]

/-- What is read as a header is long enough and has the version one. -/
theorem exists_of_decode (hd : Header.decode s = .ok h s') :
    ∃ first destination source flags, toList s = first :: destination :: source :: flags :: toList s' ∧
      toList s' ≠ [] ∧ Version.ofByte first = .one ∧
      h = .ofFlags .one ⟨destination, source⟩ flags := by
  rcases hs : toList s with _ | ⟨first, _ | ⟨destination, _ | ⟨source, _ | ⟨flags, rest⟩⟩⟩⟩
  case cons.cons.cons.cons =>
    by_cases hne : rest = []
    · rw [decode_of_short (by simp [hs, hne, minFrameLength, length])] at hd
      cases hd
    · obtain ⟨_, hrest, hd'⟩ := decode_of_cons hs hne
      rw [hd'] at hd
      split at hd
      · next hv =>
        rw [mem_supportedVersions] at hv
        injection hd with hh hs'
        rw [hs'] at hrest
        exact ⟨first, destination, source, flags, by rw [hrest], by rwa [hrest], hv, by rw [← hh, hv]⟩
      · cases hd
  all_goals
    rw [decode_of_short (by simp [hs, minFrameLength, length])] at hd
    cases hd

/-- A header that is read is written as it was found, the reserved bits apart. -/
theorem bytes_of_decode (hd : Header.decode s = .ok h s') :
    h.bytes ++ toList s' = (toList s).set 0 0x01 := by
  obtain ⟨first, destination, source, flags, hs, -, -, rfl⟩ := exists_of_decode hd
  have hone : UInt8.ofBitVec (Version.one.setWidth 8) = 0x01 := by decide
  rw [hs, bytes, flags_ofFlags]
  show UInt8.ofBitVec (Version.one.setWidth 8) :: _ = _
  rw [hone]
  rfl

end Header

/-! ## Packets -/

namespace Packet

variable {σ : Type} [ByteSource σ] {p : Packet} {s s' : σ}

theorem encode_eq (p : Packet) : p.encode = .ok p.bytes := by
  unfold encode Encoder.bytes
  rw [encodeTo_eq]
  rfl

/-- Of a packet with a payload the version decides, and nothing is left of it. -/
theorem decode_of_bytes (hs : toList s = p.bytes) (hne : p.payload ≠ []) :
    ∃ s', toList s' = [] ∧
      Packet.decode s =
        if p.header.version = .one then .ok p s'
        else .error (.refused (.unsupportedVersion p.header.version)) s := by
  obtain ⟨s', hs', hd⟩ := Header.decode_of_bytes hs hne
  by_cases hv : p.header.version = .one
  · rw [if_pos hv] at hd
    obtain ⟨rest, hp, hrest⟩ := decode_of_ok hd
    exact ⟨rest, hrest, by rw [hp, if_pos hv, hs']⟩
  · rw [if_neg hv] at hd
    refine ⟨advance s (toList s).length, ?_, by rw [decode_of_error hd, if_neg hv]⟩
    rw [toList_advance _ _ (Nat.le_of_eq (remaining_eq s).symm), List.drop_length]

/-- A packet without a payload is no more than its header. -/
theorem decode_of_bytes_alone (hs : toList s = p.bytes) (hnil : p.payload = []) :
    Packet.decode s = .error (.refused (.tooShort 4)) s := by
  refine decode_of_error (Header.decode_of_bytes_alone (h := p.header) ?_)
  rw [hs, bytes, hnil, List.append_nil]

theorem header_of_decode (hd : Packet.decode s = .ok p s') :
    ∃ rest, Header.decode s = .ok p.header rest ∧ toList rest = p.payload := by
  cases hh : Header.decode s with
  | error e rest =>
    rw [decode_of_error hh] at hd
    cases hd
  | ok header rest =>
    obtain ⟨_, hp, -⟩ := decode_of_ok hh
    rw [hp] at hd
    injection hd with hd
    subst hd
    exact ⟨rest, rfl, rfl⟩

/-- A packet that is read has a payload. -/
theorem payload_ne_nil_of_decode (hd : Packet.decode s = .ok p s') : p.payload ≠ [] := by
  obtain ⟨rest, hh, hrest⟩ := header_of_decode hd
  obtain ⟨_, _, _, _, -, hne, -, -⟩ := Header.exists_of_decode hh
  rwa [hrest] at hne

/-- A packet that is read is written as it was found, the reserved bits apart. -/
theorem bytes_of_decode (hd : Packet.decode s = .ok p s') : p.bytes = (toList s).set 0 0x01 := by
  obtain ⟨rest, hh, hrest⟩ := header_of_decode hd
  rw [← Header.bytes_of_decode hh, hrest, bytes]

end Packet

/-! ## Both directions -/

/-- **Round trips.** Whatever the source of the bytes: a packet is read back, to its last byte, just if
its version is one and it has a payload, and is refused for what it lacks otherwise; a header is read
back and what follows it is left; and a frame that is read is written again with its reserved bits
cleared. -/
theorem codec_round_trips :
    (∀ p : Packet, ∃ bytes, p.encode = .ok bytes ∧
      ∀ (σ : Type) [ByteSource σ] (s : σ), toList s = bytes →
        ((∃ s', Packet.decode s = .ok p s' ∧ toList s' = []) ↔
          p.header.version = .one ∧ p.payload ≠ []) ∧
        (p.payload = [] → Packet.decode s = .error (.refused (.tooShort 4)) s) ∧
        (p.payload ≠ [] → p.header.version ≠ .one →
          Packet.decode s = .error (.refused (.unsupportedVersion p.header.version)) s)) ∧
    (∀ (h : Header) (rest : List UInt8), h.version = .one → rest ≠ [] →
      ∃ bytes, h.encode = .ok bytes ∧
        ∀ (σ : Type) [ByteSource σ] (s : σ), toList s = bytes ++ rest →
          ∃ s', Header.decode s = .ok h s' ∧ toList s' = rest) ∧
    (∀ (σ : Type) [ByteSource σ] (s s' : σ) (p : Packet), Packet.decode s = .ok p s' →
      p.encode = .ok ((toList s).set 0 0x01)) := by
  refine ⟨fun p => ⟨p.bytes, p.encode_eq, fun σ _ s hs => ⟨⟨?_, ?_⟩, ?_, ?_⟩⟩, ?_, ?_⟩
  · rintro ⟨s', hd, -⟩
    have hne := Packet.payload_ne_nil_of_decode hd
    refine ⟨?_, hne⟩
    by_contra hv
    obtain ⟨_, -, hd'⟩ := Packet.decode_of_bytes hs hne
    rw [hd', if_neg hv] at hd
    cases hd
  · rintro ⟨hv, hne⟩
    obtain ⟨s', hs', hd⟩ := Packet.decode_of_bytes hs hne
    exact ⟨s', by rw [hd, if_pos hv], hs'⟩
  · exact Packet.decode_of_bytes_alone hs
  · intro hne hv
    obtain ⟨_, -, hd⟩ := Packet.decode_of_bytes hs hne
    rw [hd, if_neg hv]
  · intro h rest hv hne
    refine ⟨h.bytes, h.encode_eq, fun σ _ s hs => ?_⟩
    obtain ⟨s', hs', hd⟩ := Header.decode_of_bytes hs hne
    exact ⟨s', by rw [hd, if_pos hv], hs'⟩
  · intro σ _ s s' p hd
    rw [p.encode_eq, Packet.bytes_of_decode hd]

/-- A packet whose frame has reserved bits set, the same one with version two and without a payload,
and its header cut into three chunks, one of them empty. -/
theorem reserved_bits_cleared :
    (⟨⟨.one, ⟨8, 16⟩, true, false, 3, ⟨true, 3⟩⟩, [0x01, 0xaa]⟩ : Packet).encode =
        .ok [0x01, 8, 16, 0xbb, 0x01, 0xaa] ∧
      Packet.decode ([0x02, 8, 16, 0xbb, 0x01, 0xaa] : List UInt8) =
        .error (.refused (.unsupportedVersion 2)) [0x02, 8, 16, 0xbb, 0x01, 0xaa] ∧
      Packet.decode ([0x02, 8, 16, 0xbb] : List UInt8) =
        .error (.refused (.tooShort 4)) [0x02, 8, 16, 0xbb] ∧
      ∃ s', Header.decode (Chunks.mk [[0x01, 8], [], [16, 0xbb, 0x01]]) =
        .ok ⟨.one, ⟨8, 16⟩, true, false, 3, ⟨true, 3⟩⟩ s' ∧ toList s' = [0x01] := by
  obtain ⟨hpacket, hheader, hframe⟩ := codec_round_trips
  refine ⟨hframe _ (Chunks.mk [[0xf1, 8], [], [16, 0xbb, 0x01, 0xaa]]) _ _ rfl, ?_, ?_, ?_⟩
  · obtain ⟨bytes, hbytes, h⟩ :=
      hpacket ⟨⟨2, ⟨8, 16⟩, true, false, 3, ⟨true, 3⟩⟩, [0x01, 0xaa]⟩
    cases hbytes
    exact (h (List UInt8) _ rfl).2.2 (by decide) (by decide)
  · obtain ⟨bytes, hbytes, h⟩ := hpacket ⟨⟨2, ⟨8, 16⟩, true, false, 3, ⟨true, 3⟩⟩, []⟩
    cases hbytes
    exact (h (List UInt8) _ rfl).2.1 rfl
  · obtain ⟨bytes, hbytes, h⟩ :=
      hheader ⟨.one, ⟨8, 16⟩, true, false, 3, ⟨true, 3⟩⟩ [0x01] rfl (by decide)
    cases hbytes
    exact h _ (Chunks.mk [[0x01, 8], [], [16, 0xbb, 0x01]]) rfl

end MctpReceiver
