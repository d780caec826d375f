/-!
# Header fields

A header field of `w` bits is a `BitVec w`: a value outside its range cannot be written, and its
arithmetic wraps at `2 ^ w`. `Field.ofNat?` admits the numbers that fit, `BitVec.ofNat` keeps the
low bits of any number, and `Sequence.distanceTo` counts the steps between two sequence numbers.

Endpoints are numbered by one byte. What belongs to both ends of an exchange is kept as a pair that
can be seen from either side.

A tag names one exchange between two endpoints. Its four bits are the owner bit and a three-bit
value; `Tag.ofBits` and `Tag.bits` are inverse to each other.
-/

namespace MctpReceiver

/-! ## Numbers -/

abbrev Version := BitVec 4

/-- The number of a packet within its message, counted modulo four. -/
abbrev Sequence := BitVec 2

/-- The number that tells apart the concurrent exchanges of two endpoints. -/
abbrev TagValue := BitVec 3

namespace Field

/-- The number as a field of `w` bits, if it fits. -/
def ofNat? (w n : Nat) : Option (BitVec w) :=
  if (BitVec.ofNat w n).toNat = n then some (BitVec.ofNat w n) else none

/-- The greatest number that a field of `w` bits holds. -/
def max (w : Nat) : Nat := (BitVec.allOnes w).toNat

end Field

def Version.one : Version := 1

namespace Sequence

def next (s : Sequence) : Sequence := s + 1

/-- The number of steps from one sequence number to another, zero to three. -/
def distanceTo (s t : Sequence) : Nat := (t - s).toNat

@[simp] theorem distanceTo_self (s : Sequence) : s.distanceTo s = 0 := by simp [distanceTo]

@[simp] theorem distanceTo_next (s : Sequence) : s.distanceTo s.next = 1 := by
  revert s; decide

theorem distanceTo_lt (s t : Sequence) : s.distanceTo t < 4 := (t - s).isLt

end Sequence

/-! ## Endpoints -/

abbrev EndpointId := UInt8

namespace EndpointId

/-- Stands for an endpoint that has not been assigned a number. -/
def null : EndpointId := 0x00

/-- Addresses every endpoint. -/
def broadcast : EndpointId := 0xff

end EndpointId

/-- One value for each end of an exchange. -/
structure Ends (α : Type) where
  destination : α
  source : α
  deriving DecidableEq, Repr, Inhabited

namespace Ends

def swap {α : Type} (e : Ends α) : Ends α := ⟨e.source, e.destination⟩

@[simp] theorem swap_swap {α : Type} (e : Ends α) : e.swap.swap = e := rfl

end Ends

/-! ## Tags -/

/-- A tag value, and whether the sender of the packet owns it. A request carries its sender's own
tag; the answer echoes the value with the owner bit cleared. -/
structure Tag where
  owner : Bool := false
  value : TagValue := 0
  deriving DecidableEq, Repr, Inhabited

namespace Tag

/-- The four-bit form: the owner bit above the value. -/
def bits (t : Tag) : BitVec 4 := BitVec.ofBool t.owner ++ t.value

def ofBits (b : BitVec 4) : Tag where
  owner := b[3]
  value := b.extractLsb' 0 3

/-- The tag as the other end of the exchange writes it. -/
def flipOwner (t : Tag) : Tag := { t with owner := !t.owner }

/-- An owned tag is marked `TO`. -/
instance : ToString Tag where
  toString t := if t.owner then s!"TO:{t.value.toNat}" else toString t.value.toNat

@[simp] theorem bits_ofBits (b : BitVec 4) : (ofBits b).bits = b := by
  revert b; decide

@[simp] theorem ofBits_bits (t : Tag) : ofBits t.bits = t := by
  rcases t with ⟨_ | _, v⟩ <;> revert v <;> decide

theorem bits_injective {s t : Tag} (h : s.bits = t.bits) : s = t := by
  rw [← ofBits_bits s, h, ofBits_bits]

@[simp] theorem flipOwner_flipOwner (t : Tag) : t.flipOwner.flipOwner = t := by
  simp [flipOwner]

end Tag

end MctpReceiver
