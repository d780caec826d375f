/-!
# Byte buffers

Bytes are read from the front of a source and written at the end of a sink. What readers and writers
may rely on are the laws of `ByteSource` and `ByteSink`. A source is seen through `ByteSource.toList`,
what is left to read: its bytes need not lie in one piece, only the first piece can be looked at, and
nothing is promised of where that ends. To ask a source for bytes that it does not have, or a sink for
room, is a fault, for which `Stop.overrun` stands.
-/

namespace MctpReceiver

/-- Why a reader or a writer stops. -/
inductive Stop (ε : Type) where
  | refused (e : ε)
  /-- More was asked of a buffer than it has. -/
  | overrun
  deriving DecidableEq, Repr

/-- Works on a buffer, or stops with the buffer as it then is. -/
abbrev BufferM (ε σ : Type) := EStateM (Stop ε) σ

namespace BufferM

variable {ε σ α : Type}

/-- The buffer is never asked for more than it has. -/
def StaysWithin (m : BufferM ε σ α) : Prop := ∀ s s', m s ≠ .error .overrun s'

theorem get_eq (s : σ) : (get : BufferM ε σ σ) s = .ok s s := rfl

theorem set_eq (s s' : σ) : (set s' : BufferM ε σ Unit) s = .ok () s' := rfl

theorem throw_eq (e : Stop ε) (s : σ) : (throw e : BufferM ε σ α) s = .error e s := rfl

theorem pure_eq (a : α) (s : σ) : (pure a : BufferM ε σ α) s = .ok a s := rfl

end BufferM

/-! ## Sources -/

/-- Bytes to be read from the front. -/
class ByteSource (σ : Type) where
  /-- What is left to read. -/
  toList : σ → List UInt8
  remaining : σ → Nat
  /-- The piece that can be looked at. -/
  chunk : σ → List UInt8
  /-- The source behind its first bytes, if it has as many. -/
  advance : σ → Nat → σ
  remaining_eq : ∀ s, remaining s = (toList s).length
  /-- What is left begins with the piece. -/
  exists_chunk_append : ∀ s, ∃ bytes, toList s = chunk s ++ bytes
  chunk_ne_nil : ∀ s, toList s ≠ [] → chunk s ≠ []
  toList_advance : ∀ s n, n ≤ remaining s → toList (advance s n) = (toList s).drop n

namespace ByteSource

/-- The piece starts with the next byte. -/
theorem head?_chunk {σ : Type} [ByteSource σ] (s : σ) : (chunk s).head? = (toList s).head? := by
  obtain ⟨bytes, h⟩ := exists_chunk_append s
  cases hc : chunk s with
  | nil =>
    have hnil : toList s = [] := Classical.byContradiction fun hne => chunk_ne_nil s hne hc
    rw [hnil]
  | cons b piece => simp [h, hc]

/-- Bytes in one piece. -/
instance : ByteSource (List UInt8) where
  toList := id
  remaining := List.length
  chunk := id
  advance s n := s.drop n
  remaining_eq _ := rfl
  exists_chunk_append s := ⟨[], (List.append_nil s).symm⟩
  chunk_ne_nil _ h := h
  toList_advance _ _ _ := rfl

end ByteSource

/-- Bytes in pieces, some of them perhaps empty. -/
structure Chunks where
  pieces : List (List UInt8)
  deriving DecidableEq, Repr, Inhabited

namespace Chunks

/-- What a list of pieces holds beyond its first `n` bytes. -/
def dropBytes : Nat → List (List UInt8) → List (List UInt8)
  | _, [] => []
  | n, c :: cs => if n < c.length then c.drop n :: cs else dropBytes (n - c.length) cs

theorem flatten_dropBytes (n : Nat) (cs : List (List UInt8)) :
    (dropBytes n cs).flatten = cs.flatten.drop n := by
  fun_induction dropBytes n cs with
  | case1 => simp
  | case2 n c cs h => simp [List.drop_append, Nat.sub_eq_zero_of_le (Nat.le_of_lt h)]
  | case3 n c cs h ih => simp [ih, List.drop_append, List.drop_of_length_le (Nat.le_of_not_lt h)]

theorem foldr_length (cs : List (List UInt8)) :
    cs.foldr (·.length + ·) 0 = cs.flatten.length := by
  induction cs with
  | nil => rfl
  | cons c cs ih => rw [List.foldr_cons, ih, List.flatten_cons, List.length_append]

/-- The first piece that holds bytes, or nothing at the end. -/
def first (cs : List (List UInt8)) : List UInt8 := (cs.find? (!·.isEmpty)).getD []

theorem exists_first_append (cs : List (List UInt8)) : ∃ bytes, cs.flatten = first cs ++ bytes := by
  induction cs with
  | nil => exact ⟨[], rfl⟩
  | cons c cs ih =>
    cases c with
    | nil => simpa [first] using ih
    | cons b c => exact ⟨cs.flatten, rfl⟩

theorem first_ne_nil {cs : List (List UInt8)} (h : cs.flatten ≠ []) : first cs ≠ [] := by
  induction cs with
  | nil => exact absurd rfl h
  | cons c cs ih =>
    cases c with
    | nil => simpa [first] using ih (by simpa using h)
    | cons b c => simp [first]

instance : ByteSource Chunks where
  toList s := s.pieces.flatten
  remaining s := s.pieces.foldr (·.length + ·) 0
  chunk s := first s.pieces
  advance s n := ⟨dropBytes n s.pieces⟩
  remaining_eq s := foldr_length s.pieces
  exists_chunk_append s := exists_first_append s.pieces
  chunk_ne_nil _ h := first_ne_nil h
  toList_advance s n _ := flatten_dropBytes n s.pieces

end Chunks

/-! ## Sinks -/

/-- Bytes to be written at the end. -/
class ByteSink (σ : Type) where
  /-- What has been written. -/
  written : σ → List UInt8
  /-- The number of bytes that are still taken; without a limit the sink grows as needed. -/
  room : σ → Option Nat
  /-- The sink with more bytes at its end, if it has room for them. -/
  put : σ → List UInt8 → σ
  written_put : ∀ s bytes, (room s).all (bytes.length ≤ ·) = true →
    written (put s bytes) = written s ++ bytes
  room_put : ∀ s bytes, (room s).all (bytes.length ≤ ·) = true →
    room (put s bytes) = (room s).map (· - bytes.length)

namespace ByteSink

variable {σ : Type} [ByteSink σ] {s : σ}

/-- There is room for `n` more bytes. -/
def accepts (s : σ) (n : Nat) : Bool := (room s).all (n ≤ ·)

theorem accepts_of_le {m n : Nat} (hmn : m ≤ n) (h : accepts s n = true) :
    accepts s m = true := by
  unfold accepts at *
  cases hr : room s with
  | none => rfl
  | some r =>
    rw [hr] at h
    exact decide_eq_true (Nat.le_trans hmn (of_decide_eq_true h))

/-- Room for two pieces is room for the second once the first is written. -/
theorem accepts_put {bytes : List UInt8} {n : Nat} (h : accepts s (bytes.length + n) = true) :
    accepts (put s bytes) n = true := by
  have hfirst : accepts s bytes.length = true := accepts_of_le (Nat.le_add_right _ _) h
  unfold accepts at *
  rw [room_put s bytes hfirst]
  cases hr : room s with
  | none => rfl
  | some r =>
    rw [hr] at h
    have hle : bytes.length + n ≤ r := of_decide_eq_true h
    exact decide_eq_true (Nat.le_sub_of_add_le (by omega))

end ByteSink

/-- Bytes written so far, and how many more are taken. -/
structure ByteBuffer where
  written : List UInt8 := []
  room : Option Nat := none
  deriving DecidableEq, Repr, Inhabited

instance : ByteSink ByteBuffer where
  written := ByteBuffer.written
  room := ByteBuffer.room
  put s bytes := ⟨s.written ++ bytes, s.room.map (· - bytes.length)⟩
  written_put _ _ _ := rfl
  room_put _ _ _ := rfl

end MctpReceiver
