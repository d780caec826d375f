import MctpReceiver.Proofs.RoundTrip

/-!
# Reading frames

What a frame has to look like, and that nothing else about it matters.

`reads_exactly_format` sets the reader against the format, told by bytes and arithmetic: a frame has
five bytes at least and the version one, and every field of its header stands in a place of its own.
Whatever is not a frame is refused for the first thing that is wrong with it and stays in the source;
and a packet, a header and a header with the place of its payload are read alike.

`reading_ignores_chunks` says that a reader sees the bytes and not the chunks they lie in. This is a
property of readers that is put together like they are (`Decoder.Agrees`): on two sources of whatever
kind, the primitives do the same if the bytes are the same, and one reader behind another does if both do.
-/

namespace MctpReceiver

open ByteSource

/-! ## The format -/

namespace Header

/-- The fields of the header are the bits of a byte. -/
structure HasFlags (h : Header) (flags : UInt8) : Prop where
  som : h.som = flags.toNat.testBit 7
  eom : h.eom = flags.toNat.testBit 6
  sequence : h.sequence.toNat = flags.toNat / 16 % 4
  owner : h.tag.owner = flags.toNat.testBit 3
  value : h.tag.value.toNat = flags.toNat % 8

/-- The header is the one that the frame opens with. -/
structure Opens (h : Header) (frame : List UInt8) : Prop where
  version : h.version = .one
  destination : frame[1]? = some h.endpoints.destination
  source : frame[2]? = some h.endpoints.source
  flags : ∃ flags, frame[3]? = some flags ∧ h.HasFlags flags

theorem hasFlags_ofFlags (v : Version) (e : Ends EndpointId) (flags : UInt8) :
    (ofFlags v e flags).HasFlags flags where
  som := BitVec.getElem_eq_testBit_toNat ..
  eom := BitVec.getElem_eq_testBit_toNat ..
  sequence := by
    simp [ofFlags, Nat.shiftRight_eq_div_pow]
  owner := by
    show (flags.toBitVec.extractLsb' 0 4)[3] = _
    rw [BitVec.getElem_extractLsb', BitVec.getLsbD, Nat.zero_add, UInt8.toNat_toBitVec]
  value := by
    simp [ofFlags, Tag.ofBits]

theorem toNat_ofByte (byte : UInt8) : (Version.ofByte byte).toNat = byte.toNat % 16 := by
  simp [Version.ofByte]

/-- Of a byte the lower half is told by the owner bit and the tag value. -/
theorem HasFlags.tag_eq_iff {h h' : Header} {flags flags' : UInt8} (hf : h.HasFlags flags)
    (hf' : h'.HasFlags flags') : h.tag = h'.tag ↔ flags.toNat % 16 = flags'.toNat % 16 := by
  have hbit : ∀ n : Nat, n.testBit 3 = decide (n / 8 % 2 = 1) := fun n =>
    Nat.testBit_eq_decide_div_mod_eq
  have htag : h.tag = h'.tag ↔
      h.tag.owner = h'.tag.owner ∧ h.tag.value.toNat = h'.tag.value.toNat := by
    rcases h.tag with ⟨owner, value⟩
    rcases h'.tag with ⟨owner', value'⟩
    simp [BitVec.toNat_inj]
  rw [htag, hf.owner, hf'.owner, hf.value, hf'.value, hbit, hbit, decide_eq_decide]
  omega

/-- The flow of a frame is told by its second and third byte and the lower half of its fourth. -/
theorem Opens.flow_eq_iff {h h' : Header} {f g : List UInt8} (ho : h.Opens f) (ho' : h'.Opens g) :
    h.flow = h'.flow ↔ f[1]? = g[1]? ∧ f[2]? = g[2]? ∧
      f[3]?.map (·.toNat % 16) = g[3]?.map (·.toNat % 16) := by
  obtain ⟨flags, hflags, hf⟩ := ho.flags
  obtain ⟨flags', hflags', hf'⟩ := ho'.flags
  have hflow : h.flow = h'.flow ↔ h.endpoints.destination = h'.endpoints.destination ∧
      h.endpoints.source = h'.endpoints.source ∧ h.tag = h'.tag := by
    rw [flow, flow, Flow.mk.injEq]
    rcases h.endpoints with ⟨destination, source⟩
    rcases h'.endpoints with ⟨destination', source'⟩
    simp [and_assoc]
  rw [hflow, ho.destination, ho'.destination, ho.source, ho'.source, hflags, hflags',
    hf.tag_eq_iff hf']
  simp

end Header

/-! ## What is read -/

section Format

variable {σ : Type} [ByteSource σ] {s s' : σ} {h : Header} {e : Stop DecodeError}

theorem exists_eq_cons_of_length {f : List UInt8} (hf : 5 ≤ f.length) :
    ∃ first destination source flags payload,
      f = first :: destination :: source :: flags :: payload ∧ payload ≠ [] := by
  rcases f with _ | ⟨first, _ | ⟨destination, _ | ⟨source, _ | ⟨flags, _ | ⟨byte, payload⟩⟩⟩⟩⟩
  case cons.cons.cons.cons.cons => exact ⟨_, _, _, _, _, rfl, List.cons_ne_nil _ _⟩
  all_goals simp at hf

/-- The header that is read is the one that the bytes open with. -/
theorem Header.opens_of_decode (hd : Header.decode s = .ok h s') : h.Opens (toList s) := by
  obtain ⟨first, destination, source, flags, hs, -, -, rfl⟩ := exists_of_decode hd
  rw [hs]
  exact ⟨rfl, rfl, rfl, flags, rfl, hasFlags_ofFlags _ _ _⟩

/-- The version of what is long enough decides: if it is one, a header is read and its four bytes are
taken. -/
theorem Header.decode_of_length (hl : 5 ≤ (toList s).length) :
    ∃ v : Version, (toList s)[0]?.map (·.toNat % 16) = some v.toNat ∧
      (v.toNat ≠ 1 → Header.decode s = .error (.refused (.unsupportedVersion v)) s) ∧
      (v.toNat = 1 → ∃ h s', Header.decode s = .ok h s' ∧ toList s' = (toList s).drop 4) := by
  obtain ⟨first, destination, source, flags, payload, hs, hne⟩ := exists_eq_cons_of_length hl
  obtain ⟨s', hs', hdecode⟩ := Header.decode_of_cons hs hne
  have hone : Version.ofByte first ∈ supportedVersions ↔ (Version.ofByte first).toNat = 1 := by
    rw [mem_supportedVersions, ← BitVec.toNat_inj]
    rfl
  refine ⟨.ofByte first, by simp [hs, toNat_ofByte], fun hv => ?_, fun hv => ?_⟩
  · rw [hdecode, if_neg (mt hone.1 hv)]
  · rw [if_pos (hone.2 hv)] at hdecode
    exact ⟨_, _, hdecode, by rw [hs', hs]; rfl⟩

/-- What is refused as a packet is refused as a header. -/
theorem Header.decode_error_iff :
    Header.decode s = .error e s' ↔ Packet.decode s = .error e s' := by
  refine ⟨Packet.decode_of_error, fun hp => ?_⟩
  cases hd : Header.decode s with
  | error e' rest =>
    rw [Packet.decode_of_error hd] at hp
    cases hp
    rfl
  | ok header rest =>
    obtain ⟨_, hok, -⟩ := Packet.decode_of_ok hd
    rw [hok] at hp
    cases hp

/-- A frame is refused if it is too short, or for its version if it is long enough, and is left as it
is. -/
theorem Packet.decode_error_iff :
    Packet.decode s = .error e s' ↔ s' = s ∧
      ((toList s).length < 5 ∧ e = .refused (.tooShort (toList s).length) ∨
        5 ≤ (toList s).length ∧ ∃ v : Version, (toList s)[0]?.map (·.toNat % 16) = some v.toNat ∧
          v.toNat ≠ 1 ∧ e = .refused (.unsupportedVersion v)) := by
  rw [← Header.decode_error_iff]
  constructor
  · intro hd
    by_cases hl : (toList s).length < 5
    · rw [Header.decode_of_short hl] at hd
      cases hd
      exact ⟨rfl, Or.inl ⟨hl, rfl⟩⟩
    · obtain ⟨v, hv, herror, hok⟩ := Header.decode_of_length (Nat.le_of_not_lt hl)
      by_cases hone : v.toNat = 1
      · obtain ⟨h, rest, hh, -⟩ := hok hone
        rw [hh] at hd
        cases hd
      · rw [herror hone] at hd
        cases hd
        exact ⟨rfl, Or.inr ⟨Nat.le_of_not_lt hl, v, hv, hone, rfl⟩⟩
  · rintro ⟨rfl, ⟨hl, rfl⟩ | ⟨hl, v, hv, hne, rfl⟩⟩
    · exact Header.decode_of_short hl
    · obtain ⟨v', hv', herror, -⟩ := Header.decode_of_length hl
      obtain rfl : v' = v := BitVec.toNat_inj.1 (Option.some.inj (hv'.symm.trans hv))
      exact herror hne

/-- What is shorter than five bytes is refused with its length. -/
theorem Packet.decode_tooShort_iff {n : Nat} :
    Packet.decode s = .error (.refused (.tooShort n)) s' ↔
      (toList s).length < 5 ∧ n = (toList s).length ∧ s' = s := by
  rw [decode_error_iff]
  constructor
  · rintro ⟨rfl, ⟨hl, he⟩ | ⟨-, v, -, -, he⟩⟩
    · exact ⟨hl, DecodeError.tooShort.inj (Stop.refused.inj he), rfl⟩
    · cases he
  · rintro ⟨hl, rfl, rfl⟩
    exact ⟨rfl, Or.inl ⟨hl, rfl⟩⟩

/-- What is long enough is refused for a version other than one. -/
theorem Packet.decode_unsupportedVersion_iff {v : Version} :
    Packet.decode s = .error (.refused (.unsupportedVersion v)) s' ↔
      5 ≤ (toList s).length ∧ (toList s)[0]?.map (·.toNat % 16) = some v.toNat ∧ v.toNat ≠ 1 ∧
        s' = s := by
  rw [decode_error_iff]
  constructor
  · rintro ⟨rfl, ⟨-, he⟩ | ⟨hl, v', hv, hne, he⟩⟩
    · cases he
    · cases he
      exact ⟨hl, hv, hne, rfl⟩
  · rintro ⟨hl, hv, hne, rfl⟩
    exact ⟨rfl, Or.inr ⟨hl, v, hv, hne, rfl⟩⟩

/-- Whatever is not refused is read as a header that leaves the payload, and as a packet that leaves
nothing. -/
theorem Packet.exists_decode (hl : 5 ≤ (toList s).length)
    (hv : (toList s)[0]?.map (·.toNat % 16) = some 1) :
    ∃ h rest rest', Packet.decode s = .ok ⟨h, (toList s).drop 4⟩ rest ∧ toList rest = [] ∧
      Header.decode s = .ok h rest' ∧ toList rest' = (toList s).drop 4 ∧ h.Opens (toList s) := by
  obtain ⟨v, hv', -, hok⟩ := Header.decode_of_length hl
  obtain ⟨h, rest', hh, hrest'⟩ := hok (Option.some.inj (hv'.symm.trans hv))
  obtain ⟨rest, hp, hrest⟩ := Packet.decode_of_ok hh
  rw [hrest'] at hp
  exact ⟨h, rest, rest', hp, hrest, hh, hrest', Header.opens_of_decode hh⟩

/-- The header of a packet that is read is the one that its frame opens with. -/
theorem Packet.opens_of_ofFrame {frame : List UInt8} {p : Packet}
    (hp : Packet.ofFrame frame = .ok p) : p.header.Opens frame := by
  obtain ⟨rest, hd⟩ := Decoder.run_eq_ok_iff.1 hp
  obtain ⟨rest', hh, -⟩ := header_of_decode hd
  exact Header.opens_of_decode hh

/-- A header is read off a frame like a packet is, and its payload begins behind four bytes. -/
theorem Header.ofFrame_eq (frame : List UInt8) :
    Header.ofFrame frame = (Packet.ofFrame frame).map fun p => (p.header, 4) := by
  unfold Header.ofFrame Packet.ofFrame
  match hd : Header.decode frame with
  | .ok header rest =>
    obtain ⟨_, hp, -⟩ := Packet.decode_of_ok hd
    rw [Decoder.run_of_ok hd, Decoder.run_of_ok hp]
    rfl
  | .error (.refused e) rest =>
    rw [Decoder.run_of_refused hd, Decoder.run_of_refused (Packet.decode_of_error hd)]
    rfl
  | .error .overrun rest => exact (Header.decode_staysWithin _ _ hd).elim

end Format

/-- **The format.** A reader refuses what is shorter than five bytes and tells its length, and of what
is not, whatever has another version than one and tells the version; either stays as it is. All else
is read: the header as it stands in the first four bytes, and what follows them as the payload. A
header alone is read the same and leaves the payload. No reader asks a source for bytes that are not
there. Two frames that are packets are on one flow just if they agree in their endpoints and in the lower
half of their flags. -/
theorem reads_exactly_format :
    (∀ (σ : Type) [ByteSource σ] (s : σ),
      (∀ n s', Packet.decode s = .error (.refused (.tooShort n)) s' ↔
        (toList s).length < 5 ∧ n = (toList s).length ∧ s' = s) ∧
      (∀ v s', Packet.decode s = .error (.refused (.unsupportedVersion v)) s' ↔
        5 ≤ (toList s).length ∧ (toList s)[0]?.map (·.toNat % 16) = some v.toNat ∧ v.toNat ≠ 1 ∧
          s' = s) ∧
      (5 ≤ (toList s).length → (toList s)[0]?.map (·.toNat % 16) = some 1 →
        ∃ h rest rest', Packet.decode s = .ok ⟨h, (toList s).drop 4⟩ rest ∧ toList rest = [] ∧
          Header.decode s = .ok h rest' ∧ toList rest' = (toList s).drop 4 ∧ h.Opens (toList s)) ∧
      (∀ e s', Header.decode s = .error e s' ↔ Packet.decode s = .error e s') ∧
      ∀ s', Packet.decode s ≠ .error .overrun s') ∧
    (∀ frame, Header.ofFrame frame = (Packet.ofFrame frame).map fun p => (p.header, 4)) ∧
    (∀ f g p q, Packet.ofFrame f = .ok p → Packet.ofFrame g = .ok q →
      (p.flow = q.flow ↔ f[1]? = g[1]? ∧ f[2]? = g[2]? ∧
        f[3]?.map (·.toNat % 16) = g[3]?.map (·.toNat % 16))) := by
  refine ⟨fun σ _ s => ⟨fun n s' => Packet.decode_tooShort_iff,
    fun v s' => Packet.decode_unsupportedVersion_iff, Packet.exists_decode,
    fun e s' => Header.decode_error_iff, Packet.decode_staysWithin s⟩, Header.ofFrame_eq,
    fun f g p q hp hq => ?_⟩
  exact (Packet.opens_of_ofFrame hp).flow_eq_iff (Packet.opens_of_ofFrame hq)

/-- A frame of four bytes with another version is too short, and one of five bytes has the wrong version.
A frame with reserved bits is read, and is on one flow with a fragment without them. -/
theorem reserved_bits_ignored :
    Packet.decode ([0x02, 8, 16, 0x8b] : List UInt8) =
        .error (.refused (.tooShort 4)) [0x02, 8, 16, 0x8b] ∧
      Packet.decode ([0xf2, 8, 16, 0x8b, 0x01] : List UInt8) =
        .error (.refused (.unsupportedVersion 2)) [0xf2, 8, 16, 0x8b, 0x01] ∧
      (∃ h rest rest', Packet.decode (Chunks.mk [[0xf1], [], [8, 16, 0x5b], [0x02]]) =
          .ok ⟨h, [0x02]⟩ rest ∧
        toList rest = [] ∧ Header.decode (Chunks.mk [[0xf1], [], [8, 16, 0x5b], [0x02]]) = .ok h rest' ∧
        toList rest' = [0x02] ∧ h.Opens [0xf1, 8, 16, 0x5b, 0x02]) ∧
      (⟨.ofFlags .one ⟨8, 16⟩ 0x8b, [0x01]⟩ : Packet).flow =
        (⟨.ofFlags .one ⟨8, 16⟩ 0x5b, [0x02]⟩ : Packet).flow := by
  obtain ⟨hread, -, hflow⟩ := reads_exactly_format
  refine ⟨((hread (List UInt8) _).1 4 _).2 ⟨by decide, rfl, rfl⟩,
    ((hread (List UInt8) _).2.1 2 _).2 ⟨by decide, by decide, by decide, rfl⟩,
    (hread Chunks ⟨[[0xf1], [], [8, 16, 0x5b], [0x02]]⟩).2.2.1 (by decide) (by decide), ?_⟩
  exact (hflow [0x01, 8, 16, 0x8b, 0x01] [0xf1, 8, 16, 0x5b, 0x02] _ _ rfl rfl).2
    ⟨rfl, rfl, by decide⟩

/-! ## Chunks -/

namespace Decoder

section Agreement

variable {σ τ α β : Type} [ByteSource σ] [ByteSource τ] {d : Decoder σ α} {d' : Decoder τ α}

/-- What a reader makes of a source, and the bytes that it leaves. -/
def view (d : Decoder σ α) (s : σ) : Except (Stop DecodeError) α × List UInt8 :=
  match d s with
  | .ok a s' => (.ok a, toList s')
  | .error e s' => (.error e, toList s')

/-- The readers see the bytes of their sources, and not where the pieces meet. -/
def Agrees (d : Decoder σ α) (d' : Decoder τ α) : Prop :=
  ∀ s s', toList s = toList s' → d.view s = d'.view s'

theorem view_bind (d : Decoder σ α) (k : α → Decoder σ β) (s : σ) :
    (d >>= k).view s = match d s with
      | .ok a s' => (k a).view s'
      | .error e s' => (.error e, toList s') := by
  show (match EStateM.bind d k s with
    | .ok a s' => (Except.ok a, toList s')
    | .error e s' => (Except.error e, toList s')) = _
  unfold EStateM.bind
  cases d s <;> rfl

theorem agrees_pure (a : α) : (pure a : Decoder σ α).Agrees (pure a : Decoder τ α) := by
  intro s s' h
  simp only [view, BufferM.pure_eq, h]

/-- Whatever would come behind a stop is not reached. -/
theorem agrees_throw_bind (e : Stop DecodeError) (k : α → Decoder σ β) (k' : α → Decoder τ β) :
    ((throw e : Decoder σ α) >>= k).Agrees ((throw e : Decoder τ α) >>= k') := by
  intro s s' h
  rw [view_bind, view_bind, BufferM.throw_eq, BufferM.throw_eq]
  simp only [h]

/-- One reader behind another agrees if both do. -/
theorem Agrees.bind {k : α → Decoder σ β} {k' : α → Decoder τ β} (hd : d.Agrees d')
    (hk : ∀ a, (k a).Agrees (k' a)) : (d >>= k).Agrees (d' >>= k') := by
  intro s s' h
  have hview := hd s s' h
  rw [view_bind, view_bind]
  unfold view at hview
  cases hs : d s <;> cases hs' : d' s' <;> simp only [hs, hs', Prod.mk.injEq] at hview ⊢
  case ok.ok a t a' t' =>
    obtain ⟨ha, ht⟩ := hview
    cases ha
    exact hk a t t' ht
  case error.error e t e' t' =>
    obtain ⟨he, ht⟩ := hview
    cases he
    exact ⟨rfl, ht⟩
  all_goals cases hview.1

/-- The sources may be looked at, as long as what follows agrees. -/
theorem agrees_get_bind {k : σ → Decoder σ α} {k' : τ → Decoder τ α}
    (hk : ∀ s s', toList s = toList s' → (k s).Agrees (k' s')) :
    ((get : Decoder σ σ) >>= k).Agrees ((get : Decoder τ τ) >>= k') := by
  intro s s' h
  rw [view_bind, view_bind, BufferM.get_eq, BufferM.get_eq]
  exact hk s s' h s s' h

theorem agrees_peek : (peek : Decoder σ UInt8).Agrees (peek : Decoder τ UInt8) := by
  intro s s' h
  cases hs : toList s with
  | nil => simp only [view, peek_of_nil hs, peek_of_nil (h ▸ hs), h]
  | cons byte bytes => simp only [view, peek_eq hs, peek_eq (h ▸ hs), h]

theorem agrees_skip (n : Nat) : (skip n : Decoder σ Unit).Agrees (skip n : Decoder τ Unit) := by
  intro s s' h
  by_cases hn : n ≤ (toList s).length
  · have hn' : n ≤ (toList s').length := h ▸ hn
    simp only [view, skip_eq hn, skip_eq hn']
    rw [toList_advance s n (by rwa [remaining_eq]), toList_advance s' n (by rwa [remaining_eq]), h]
  · have hlt : (toList s).length < n := Nat.lt_of_not_le hn
    simp only [view, skip_of_lt hlt, skip_of_lt (h ▸ hlt), h]

theorem agrees_byte : (byte : Decoder σ UInt8).Agrees (byte : Decoder τ UInt8) :=
  agrees_peek.bind fun byte => (agrees_skip 1).bind fun _ => agrees_pure byte

theorem agrees_rest : (rest : Decoder σ (List UInt8)).Agrees (rest : Decoder τ (List UInt8)) := by
  refine agrees_get_bind fun s s' h => ?_
  rw [remaining_eq, remaining_eq, h]
  exact (agrees_skip _).bind fun _ => agrees_pure _

theorem agrees_header : (Header.decode : Decoder σ Header).Agrees (Header.decode : Decoder τ Header) := by
  refine agrees_get_bind fun s s' h => ?_
  rw [remaining_eq, remaining_eq, h]
  dsimp only
  split
  · exact agrees_throw_bind _ _ _
  · refine agrees_peek.bind fun byte => ?_
    split
    · exact (agrees_skip 1).bind fun _ => agrees_byte.bind fun destination =>
        agrees_byte.bind fun source => agrees_byte.bind fun flags => agrees_pure _
    · exact agrees_throw_bind _ _ _

theorem agrees_packet : (Packet.decode : Decoder σ Packet).Agrees (Packet.decode : Decoder τ Packet) :=
  agrees_header.bind fun _ => agrees_rest.bind fun _ => agrees_pure _

end Agreement

end Decoder

/-- **Chunks.** However the bytes of a header or a packet are cut into chunks, empty ones among them,
it is read, or refused, as it is from one chunk, and the same bytes are left. The same holds of every
source, whatever the pieces that it shows. -/
theorem reading_ignores_chunks :
    (∀ chunks : List (List UInt8),
      Header.decode.view (Chunks.mk chunks) = Header.decode.view chunks.flatten ∧
        Packet.decode.view (Chunks.mk chunks) = Packet.decode.view chunks.flatten) ∧
    ∀ (σ : Type) [ByteSource σ] (s : σ),
      Header.decode.view s = Header.decode.view (toList s) ∧
        Packet.decode.view s = Packet.decode.view (toList s) :=
  ⟨fun _ => ⟨Decoder.agrees_header _ _ rfl, Decoder.agrees_packet _ _ rfl⟩,
    fun _ _ _ => ⟨Decoder.agrees_header _ _ rfl, Decoder.agrees_packet _ _ rfl⟩⟩

end MctpReceiver
