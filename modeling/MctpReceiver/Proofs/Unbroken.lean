import MctpReceiver.Proofs.Steps
import Mathlib.Data.List.Chain

/-!
# Broken and unbroken messages

A partial message is `Broken` once its start is not there or a fragment is missing: it stays so
whatever is added to it, and is never ready. It is `Unbroken` while its fragments carry on one behind
the other from a start of message, without an end. The next fragment keeps it unbroken, completes it
or breaks it, as it does or does not carry on behind the latest one.
-/

namespace MctpReceiver

namespace PartialMessage

/-- The start of the message is not there or a fragment is missing, and neither can be made up for. -/
def Broken (m : PartialMessage) : Prop := m.startFrame = none ∨ 0 < m.missing

/-- The fragments `q :: qs` carry on one behind the other from a start of message, and the end is
still to come. -/
structure Unbroken (m : PartialMessage) (q : Fragment) (qs : List Fragment) : Prop where
  fragments : m.fragments = q :: qs
  first : q.header.position = .first
  middle : ∀ r ∈ qs, r.header.position = .middle
  chain : List.IsChain Fragment.Continues (q :: qs)
  startFrame : m.startFrame = some q.frame
  missing : m.missing = 0
  hasTail : m.hasTail = false

variable {m : PartialMessage} {q f : Fragment} {qs : List Fragment}

theorem Broken.completion_ne_ready (h : m.Broken) : m.completion ≠ .ready := by
  intro hc
  obtain ⟨-, hs, hm⟩ := completion_eq_ready.1 hc
  rcases h with h | h
  · exact hs h
  · omega

theorem Broken.append (h : m.Broken) (f : Fragment) : (m.append f).Broken := by
  rcases h with h | h
  · exact Or.inl h
  · exact Or.inr (Nat.lt_of_lt_of_le h (Nat.le_add_right _ _))

theorem broken_start (hf : f.header.som = false) : (start f).Broken := by
  left
  simp [start, hf]

theorem unbroken_start (hf : f.header.position = .first) : (start f).Unbroken f [] where
  fragments := rfl
  first := hf
  middle := by simp
  chain := List.isChain_singleton f
  startFrame := by simp [start, (Header.position_eq_first.1 hf).1]
  missing := rfl
  hasTail := (Header.position_eq_first.1 hf).2

/-- The frame seen last and the conflict mark have no part in it. -/
theorem Unbroken.touch (h : m.Unbroken q qs) (frame : FrameId) (conflicted : Bool) :
    { m with lastFrame := frame, conflicted := conflicted }.Unbroken q qs :=
  ⟨h.fragments, h.first, h.middle, h.chain, h.startFrame, h.missing, h.hasTail⟩

theorem Unbroken.getLast (h : m.Unbroken q qs) : m.latest ∈ (q :: qs).getLast? := by
  rw [← h.fragments, PartialMessage.fragments, List.reverse_cons, List.getLast?_concat]
  rfl

theorem Unbroken.latest_eq (h : m.Unbroken q []) : m.latest = q := by
  have hlast := h.getLast
  simpa using hlast.symm

/-- The chain of an unbroken message goes on with whatever carries on behind its latest fragment. -/
theorem Unbroken.chain_concat (h : m.Unbroken q qs) (hf : m.latest.Continues f) :
    List.IsChain Fragment.Continues (q :: (qs ++ [f])) := by
  rw [← List.cons_append]
  refine List.isChain_append.2 ⟨h.chain, List.isChain_singleton f, ?_⟩
  intro x hx y hy
  rw [Option.mem_unique hx h.getLast]
  simp only [List.head?_cons, Option.mem_some_iff] at hy
  rwa [← hy]

theorem Unbroken.append (h : m.Unbroken q qs) (hf : f.header.position = .middle)
    (hc : m.latest.Continues f) : (m.append f).Unbroken q (qs ++ [f]) where
  fragments := by rw [fragments_append, h.fragments, List.cons_append]
  first := h.first
  middle := by
    intro r hr
    rcases List.mem_append.1 hr with hr | hr
    · exact h.middle r hr
    · rwa [List.mem_singleton.1 hr]
  chain := h.chain_concat hc
  startFrame := h.startFrame
  missing := by
    show m.missing + m.latest.lostBefore f = 0
    rw [h.missing, (Fragment.continues_iff.1 hc).2]
  hasTail := by simp [hasTail_append, h.hasTail, (Header.position_eq_middle.1 hf).2]

/-- A gap behind the latest fragment breaks the message. -/
theorem broken_append_of_not_continues (hr : f.repeats m.latest = false)
    (hc : ¬ m.latest.Continues f) : (m.append f).Broken := by
  have hlost : m.latest.lostBefore f ≠ 0 := fun h => hc (Fragment.continues_iff.2 ⟨hr, h⟩)
  right
  show 0 < m.missing + m.latest.lostBefore f
  omega

/-- The end of a message completes it just if it carries on behind the latest fragment. -/
theorem Unbroken.completion_append (h : m.Unbroken q qs) (hf : f.header.position = .last)
    (hr : f.repeats m.latest = false) :
    (m.append f).completion = .ready ↔ m.latest.Continues f := by
  have hmissing : (m.append f).missing = m.latest.lostBefore f := by
    show m.missing + _ = _
    rw [h.missing, Nat.zero_add]
  have hstart : (m.append f).startFrame = some q.frame := h.startFrame
  rw [completion_eq_ready, Fragment.continues_iff, hmissing, hstart, hasTail_append,
    (Header.position_eq_last.1 hf).2]
  simp [hr]

/-- A fragment without flags that carries on behind the others is kept. -/
theorem Unbroken.step_append (flow : Flow) (h : m.Unbroken q qs)
    (hf : f.header.position = .middle) (hc : m.latest.Continues f) :
    Step flow f (some m) ⟨.buffered, []⟩ (some (m.append f)) :=
  .continued hf (Fragment.continues_iff.1 hc).1 h.hasTail

/-- An end of message that carries on behind the others completes the message. -/
theorem Unbroken.step_complete (flow : Flow) (h : m.Unbroken q qs)
    (hf : f.header.position = .last) (hc : m.latest.Continues f) :
    Step flow f (some m) ⟨.completed ((m.append f).assemble flow f.frame), []⟩ none := by
  have hr := (Fragment.continues_iff.1 hc).1
  have hstep : Step flow f (some m) _ none := .completed hf hr ((h.completion_append hf hr).2 hc)
  rwa [h.hasTail] at hstep

end PartialMessage

end MctpReceiver
