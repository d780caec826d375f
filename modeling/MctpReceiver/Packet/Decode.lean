import MctpReceiver.Buffer
import MctpReceiver.Packet

/-!
# Reading packets

A frame is a header and a payload of at least one byte. Reading is refused for a frame that is too
short and for an unknown version, in this order, and then takes nothing from the source. A reader that
takes a byte looks at it first, and stops with a fault where there is none; this never happens to a
header or a packet (`BufferM.StaysWithin`), since the length is seen to before.
-/

namespace MctpReceiver

open BufferM ByteSource

/-- Why a frame is not a packet. -/
inductive DecodeError where
  /-- There is no room for a header and a message type. -/
  | tooShort (length : Nat)
  | unsupportedVersion (version : Version)
  deriving DecidableEq, Repr

def DecodeError.message : DecodeError → String
  | .tooShort length => s!"bogus length {length}, minimum {Header.minFrameLength}"
  | .unsupportedVersion version =>
    s!"cannot decode packet with unsupported header version {version.toNat}"

/-- Reads from a source, or stops with the source as it then is. -/
abbrev Decoder (σ : Type) := BufferM DecodeError σ

namespace Decoder

variable {σ : Type} [ByteSource σ]

/-- The next byte, which stays in the source. -/
def peek : Decoder σ UInt8 := do
  match chunk (← get) with
  | [] => throw .overrun
  | byte :: _ => return byte

/-- Passes over bytes. -/
def skip (n : Nat) : Decoder σ Unit := do
  let source ← get
  if remaining source < n then
    throw .overrun
  set (advance source n)

def byte : Decoder σ UInt8 := do
  let byte ← peek
  skip 1
  return byte

/-- All that is left. -/
def rest : Decoder σ (List UInt8) := do
  let source ← get
  skip (remaining source)
  return toList source

variable {s : σ} {b : UInt8} {bytes : List UInt8}

theorem peek_of_nil (h : toList s = []) : peek s = .error .overrun s := by
  have hc : chunk s = [] := by rw [← List.head?_eq_none_iff, head?_chunk, h, List.head?_nil]
  simp [peek, hc, bind, EStateM.bind, get_eq, throw_eq]

theorem peek_eq (h : toList s = b :: bytes) : peek s = .ok b s := by
  have hc := head?_chunk s
  rw [h] at hc
  cases hs : chunk s with
  | nil => rw [hs] at hc; cases hc
  | cons c _ =>
    rw [hs] at hc
    cases hc
    simp [peek, hs, bind, EStateM.bind, get_eq, pure_eq]

theorem skip_eq {n : Nat} (h : n ≤ (toList s).length) : skip n s = .ok () (advance s n) := by
  have hn : ¬ remaining s < n := by
    rw [remaining_eq]
    omega
  simp [skip, bind, EStateM.bind, get_eq, hn, set_eq]

theorem skip_of_lt {n : Nat} (h : (toList s).length < n) : skip n s = .error .overrun s := by
  simp [skip, bind, EStateM.bind, get_eq, remaining_eq, h, throw_eq]

theorem toList_advance_one (h : toList s = b :: bytes) : toList (advance s 1) = bytes := by
  rw [toList_advance s 1 (by rw [remaining_eq, h]; simp), h]
  rfl

theorem byte_eq (h : toList s = b :: bytes) : byte s = .ok b (advance s 1) := by
  have hone : 1 ≤ (toList s).length := by simp [h]
  simp [byte, bind, EStateM.bind, peek_eq h, skip_eq hone, pure_eq]

theorem rest_eq (s : σ) : rest s = .ok (toList s) (advance s (toList s).length) := by
  simp [rest, bind, EStateM.bind, get_eq, remaining_eq, skip_eq, pure_eq]

end Decoder

/-- The version in the first byte of a header; the upper half of the byte is reserved. -/
def Version.ofByte (byte : UInt8) : Version := byte.toBitVec.setWidth 4

variable {σ : Type} [ByteSource σ]

/-- Reads a header. The byte after it has to be there but is left in the source. -/
def Header.decode : Decoder σ Header := do
  let source ← get
  if remaining source < minFrameLength then
    throw (.refused (.tooShort (remaining source)))
  let version := Version.ofByte (← Decoder.peek)
  unless version ∈ supportedVersions do
    throw (.refused (.unsupportedVersion version))
  Decoder.skip 1
  let destination ← Decoder.byte
  let source ← Decoder.byte
  let flags ← Decoder.byte
  return .ofFlags version ⟨destination, source⟩ flags

/-- Reads a header, and all that follows as the payload. -/
def Packet.decode : Decoder σ Packet := do
  let header ← Header.decode
  let payload ← Decoder.rest
  return ⟨header, payload⟩

/-! ## What reading does -/

/-- Too short a source is refused and left as it is. -/
theorem Header.decode_of_short {s : σ} (h : (toList s).length < minFrameLength) :
    Header.decode s = .error (.refused (.tooShort (toList s).length)) s := by
  simp [decode, bind, EStateM.bind, get_eq, remaining_eq, h, throw_eq]

/-- Of a source that is long enough, the first byte decides and the next three are taken as they
are. -/
theorem Header.decode_of_cons {s : σ} {first destination source flags : UInt8} {bytes : List UInt8}
    (h : toList s = first :: destination :: source :: flags :: bytes) (hne : bytes ≠ []) :
    ∃ s', toList s' = bytes ∧
      Header.decode s =
        if Version.ofByte first ∈ supportedVersions then
          .ok (.ofFlags (.ofByte first) ⟨destination, source⟩ flags) s'
        else .error (.refused (.unsupportedVersion (.ofByte first))) s := by
  have hl : ¬ remaining s < minFrameLength := by
    have := List.length_pos_iff.2 hne
    simp only [remaining_eq, h, minFrameLength, length, List.length_cons]
    omega
  have hone : 1 ≤ (toList s).length := by simp [h]
  have h₁ := Decoder.toList_advance_one h
  have h₂ := Decoder.toList_advance_one h₁
  have h₃ := Decoder.toList_advance_one h₂
  refine ⟨_, Decoder.toList_advance_one h₃, ?_⟩
  split <;> rename_i hv <;>
    simp [decode, bind, EStateM.bind, get_eq, hl, Decoder.peek_eq h, hv, throw_eq,
      Decoder.skip_eq hone, Decoder.byte_eq h₁, Decoder.byte_eq h₂, Decoder.byte_eq h₃, pure_eq]

/-- A packet is refused for the same reasons as its header. -/
theorem Packet.decode_of_error {s s' : σ} {e : Stop DecodeError}
    (h : Header.decode s = .error e s') : Packet.decode s = .error e s' := by
  simp [decode, bind, EStateM.bind, h]

/-- What follows the header of a packet is its payload, and nothing is left. -/
theorem Packet.decode_of_ok {s s' : σ} {header : Header} (h : Header.decode s = .ok header s') :
    ∃ rest, Packet.decode s = .ok ⟨header, toList s'⟩ rest ∧ toList rest = [] := by
  refine ⟨advance s' (toList s').length, ?_, ?_⟩
  · simp [decode, bind, EStateM.bind, h, Decoder.rest_eq, pure_eq]
  · rw [toList_advance _ _ (Nat.le_of_eq (remaining_eq s').symm), List.drop_length]

theorem Header.decode_staysWithin : (Header.decode : Decoder σ Header).StaysWithin := by
  intro s s' h
  rcases hs : toList s with _ | ⟨first, _ | ⟨destination, _ | ⟨source, _ | ⟨flags, bytes⟩⟩⟩⟩
  case cons.cons.cons.cons =>
    by_cases hne : bytes = []
    · rw [decode_of_short (by simp [hs, hne, minFrameLength, length])] at h
      cases h
    · obtain ⟨_, -, hd⟩ := decode_of_cons hs hne
      rw [hd] at h
      split at h <;> cases h
  all_goals
    rw [decode_of_short (by simp [hs, minFrameLength, length])] at h
    cases h

theorem Packet.decode_staysWithin : (Packet.decode : Decoder σ Packet).StaysWithin := by
  intro s s' h
  cases hd : (Header.decode s : EStateM.Result (Stop DecodeError) σ Header) with
  | error e rest =>
    rw [decode_of_error hd] at h
    cases h
    exact Header.decode_staysWithin _ _ hd
  | ok header rest =>
    obtain ⟨_, hp, -⟩ := decode_of_ok hd
    rw [hp] at h
    cases h

/-! ## Frames -/

namespace Decoder

variable {α : Type} {d : Decoder (List UInt8) α} {hd : d.StaysWithin} {frame : List UInt8}

/-- What a reader makes of a frame in one piece. -/
def run (d : Decoder (List UInt8) α) (hd : d.StaysWithin) (frame : List UInt8) :
    Except DecodeError α :=
  match h : d frame with
  | .ok a _ => .ok a
  | .error (.refused e) _ => .error e
  | .error .overrun rest => (hd frame rest h).elim

theorem run_of_ok {a : α} {rest : List UInt8} (h : d frame = .ok a rest) :
    d.run hd frame = .ok a := by
  unfold run
  split <;> rename_i heq <;> rw [h] at heq <;> cases heq
  rfl

theorem run_of_refused {e : DecodeError} {rest : List UInt8}
    (h : d frame = .error (.refused e) rest) : d.run hd frame = .error e := by
  unfold run
  split <;> rename_i heq <;> rw [h] at heq <;> cases heq
  rfl

theorem run_eq_ok_iff {a : α} : d.run hd frame = .ok a ↔ ∃ rest, d frame = .ok a rest := by
  refine ⟨fun h => ?_, fun ⟨rest, h⟩ => run_of_ok h⟩
  match hs : d frame with
  | .ok a' rest =>
    rw [run_of_ok hs] at h
    cases h
    exact ⟨rest, rfl⟩
  | .error (.refused e) rest =>
    rw [run_of_refused hs] at h
    cases h
  | .error .overrun rest => exact (hd frame rest hs).elim

end Decoder

/-- The header of a frame, and where its payload begins. -/
def Header.ofFrame (frame : List UInt8) : Except DecodeError (Header × Nat) :=
  (Decoder.run Header.decode decode_staysWithin frame).map (·, length)

def Packet.ofFrame (frame : List UInt8) : Except DecodeError Packet :=
  Decoder.run Packet.decode decode_staysWithin frame

end MctpReceiver
