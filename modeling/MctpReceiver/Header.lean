import MctpReceiver.Field

/-!
# Packet headers

A packet opens with four bytes: the version in the low half of the first, the destination, the
source, and a byte of flags.

    [ SOM | EOM | sequence : 2 | tag owner | tag value : 3 ]

`Header.flags` packs the last byte and `Header.ofFlags` unpacks it.
-/

namespace MctpReceiver

/-- Where a packet stands in its message. -/
inductive Position where
  /-- The packet holds the whole message. -/
  | single
  | first
  | middle
  | last
  deriving DecidableEq, Repr

structure Header where
  version : Version
  endpoints : Ends EndpointId
  som : Bool
  eom : Bool
  sequence : Sequence
  tag : Tag
  deriving DecidableEq, Repr

namespace Header

def length : Nat := 4

/-- A frame holds a header and at least the byte that tells the message type. -/
def minFrameLength : Nat := length + 1

def supportedVersions : List Version := [Version.one]

/-- The place in its message that the two flags give a packet. -/
def position (h : Header) : Position :=
  match h.som, h.eom with
  | true, true => .single
  | true, false => .first
  | false, false => .middle
  | false, true => .last

/-- A packet that holds less than a whole message. -/
def isFragment (h : Header) : Bool := !(h.som && h.eom)

def flags (h : Header) : UInt8 :=
  .ofBitVec (BitVec.ofBool h.som ++ BitVec.ofBool h.eom ++ h.sequence ++ h.tag.bits)

/-- The header whose last byte is `byte`. -/
def ofFlags (version : Version) (endpoints : Ends EndpointId) (byte : UInt8) : Header where
  version
  endpoints
  som := byte.toBitVec[7]
  eom := byte.toBitVec[6]
  sequence := byte.toBitVec.extractLsb' 4 2
  tag := .ofBits (byte.toBitVec.extractLsb' 0 4)

instance : ToString Header where
  toString h :=
    let flags := match h.position with
      | .single => "SOM|EOM"
      | .first => "SOM"
      | .middle => "none"
      | .last => "EOM"
    s!"Flags {flags}, seq {h.sequence.toNat}, tag {h.tag}"

theorem isFragment_iff (h : Header) : h.isFragment = true ↔ h.position ≠ .single := by
  rcases h with ⟨_, _, som, eom, _, _⟩
  cases som <;> cases eom <;> simp [isFragment, position]

@[simp] theorem flags_ofFlags (v : Version) (e : Ends EndpointId) (byte : UInt8) :
    (ofFlags v e byte).flags = byte := by
  have unpack_pack : ∀ b : BitVec 8,
      (BitVec.ofBool b[7] ++ BitVec.ofBool b[6] ++ b.extractLsb' 4 2 ++
        b.extractLsb' 0 4 : BitVec 8) = b := by decide
  simpa [flags, ofFlags] using congrArg UInt8.ofBitVec (unpack_pack byte.toBitVec)

@[simp] theorem ofFlags_flags (h : Header) : ofFlags h.version h.endpoints h.flags = h := by
  have pack_unpack : ∀ (som eom : Bool) (s : Sequence) (t : BitVec 4),
      let b : BitVec 8 := BitVec.ofBool som ++ BitVec.ofBool eom ++ s ++ t
      b[7] = som ∧ b[6] = eom ∧ b.extractLsb' 4 2 = s ∧ b.extractLsb' 0 4 = t := by
    decide
  obtain ⟨hs, he, hq, ht⟩ := pack_unpack h.som h.eom h.sequence h.tag.bits
  simp [ofFlags, flags, hs, he, hq, ht]

end Header

end MctpReceiver
