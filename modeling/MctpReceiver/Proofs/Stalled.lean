import MctpReceiver.Proofs.Unbroken

/-!
# Stalled flows

A flow is stalled while nothing that it keeps can be completed: it keeps nothing, or a broken message
whose latest fragment is not a start. Until the next start of message it stays so, whatever arrives
(`Stalled.step`); and that start finds all stalled flows alike, for it begins a new message on each
of them (`Stalled.start`).

The owner of a reassembler sees two signs of it: the fragments do not begin with a start of message,
or there is an end among them that completed nothing (`hopeless_of_dead`).
-/

namespace MctpReceiver

namespace PartialMessage

/-- The message is broken, and the next start of message is not taken for a repetition. -/
structure Hopeless (m : PartialMessage) : Prop where
  broken : m.Broken
  som_latest : m.latest.header.som = false

/-- What can be seen of a message that will not be completed: it has no start, or it has an end and
is still there. -/
def Dead (m : PartialMessage) : Prop := m.orphan = true ∨ m.hasTail = true

end PartialMessage

/-- Nothing that is pending can be completed before the next start of message. -/
def Stalled (pending : Option PartialMessage) : Prop := ∀ m, pending = some m → m.Hopeless

variable {flow : Flow} {f : Fragment} {pending next : Option PartialMessage} {i : Ingestion}
  {m : PartialMessage}

namespace PartialMessage

theorem hopeless_start (hf : f.header.som = false) : (start f).Hopeless := ⟨broken_start hf, hf⟩

theorem Hopeless.append (h : m.Hopeless) (hf : f.header.som = false) : (m.append f).Hopeless :=
  ⟨h.broken.append f, hf⟩

theorem Hopeless.touch (h : m.Hopeless) (frame : FrameId) (conflicted : Bool) :
    { m with lastFrame := frame, conflicted := conflicted }.Hopeless :=
  ⟨h.broken, h.som_latest⟩

theorem Hopeless.stalled (h : m.Hopeless) : Stalled (some m) := by
  rintro _ ⟨⟩
  exact h

end PartialMessage

theorem stalled_none : Stalled none := by
  intro m h
  cases h

/-! ## Until the next start and after it -/

/-- Whatever does not start a message completes none, and leaves the flow stalled. -/
theorem Stalled.step (h : Stalled pending) (hf : f.header.som = false)
    (hstep : Step flow f pending i next) : i.outcome = .buffered ∧ Stalled next := by
  cases hstep with
  | single hp => simp [(Header.position_eq_single.1 hp).1] at hf
  | opened hp => simp [(Header.position_eq_first.1 hp).1] at hf
  | orphaned hp => exact ⟨rfl, (PartialMessage.hopeless_start hf).stalled⟩
  | orphanedEnd hp => exact ⟨rfl, (PartialMessage.hopeless_start hf).stalled⟩
  | repeated hp hr hq => exact ⟨rfl, ((h _ rfl).touch _ _).stalled⟩
  | conflicting hp hr hq => exact ⟨rfl, ((h _ rfl).touch _ _).stalled⟩
  | restarted hp hr => simp [(Header.position_eq_first.1 hp).1] at hf
  | beyond hp hr ht => exact ⟨rfl, ((h _ rfl).touch _ _).stalled⟩
  | continued hp hr ht => exact ⟨rfl, ((h _ rfl).append hf).stalled⟩
  | completed hp hr hc => exact absurd hc ((h _ rfl).broken.append f).completion_ne_ready
  | failed hp hr hc => exact ⟨rfl, ((h _ rfl).append hf).stalled⟩

/-- A start of message is no repetition of what a stalled flow keeps. -/
theorem Stalled.not_repeats (h : Stalled (some m)) (hf : f.header.position = .first) :
    f.repeats m.latest = false := by
  refine Bool.eq_false_iff.2 fun hr => ?_
  have hsom : f.header.som = m.latest.header.som := (Fragment.repeats_iff.1 hr).2.1
  rw [(h m rfl).som_latest, (Header.position_eq_first.1 hf).1] at hsom
  cases hsom

/-- A start of message begins anew on a stalled flow. -/
theorem Stalled.start (h : Stalled pending) (hf : f.header.position = .first)
    (hstep : Step flow f pending i next) : i = ⟨.buffered, []⟩ ∧ next = some (.start f) := by
  cases pending with
  | none => exact hstep.unique (.opened hf)
  | some m => exact hstep.unique (.restarted hf (h.not_repeats hf))

/-! ## Signs of a stalled flow -/

/-- An end that completes nothing leaves a broken message. -/
theorem PartialMessage.broken_of_incomplete {missing : Option Nat}
    (h : m.completion = .incomplete missing) : m.Broken := by
  unfold completion at h
  unfold Broken
  cases hs : m.startFrame with
  | none => exact Or.inl rfl
  | some frame =>
    right
    by_contra hm
    rw [hs, Option.isNone_some, if_neg Bool.false_ne_true, if_neg hm] at h
    split at h <;> cases h

/-- A packet leaves no message behind that looks dead and is not. -/
theorem Step.hopeless_of_dead (h : ∀ m', pending = some m' → m'.Dead → m'.Hopeless)
    (hstep : Step flow f pending i (some m)) (hd : m.Dead) : m.Hopeless := by
  cases hstep with
  | single => exact h m rfl hd
  | opened hp | restarted hp =>
    obtain ⟨hs, he⟩ := Header.position_eq_first.1 hp
    simp [PartialMessage.Dead, PartialMessage.start, hs, he] at hd
  | orphaned hp => exact PartialMessage.hopeless_start (Header.position_eq_middle.1 hp).1
  | orphanedEnd hp => exact PartialMessage.hopeless_start (Header.position_eq_last.1 hp).1
  | repeated | conflicting | beyond => exact (h _ rfl hd).touch _ _
  | @continued m' hp hr ht =>
    -- Without an end, only the missing start can be the sign.
    obtain ⟨hs, he⟩ := Header.position_eq_middle.1 hp
    rcases hd with ho | ht'
    · exact (h m' rfl (Or.inl ho)).append hs
    · simp [PartialMessage.hasTail_append, ht, he] at ht'
  | failed hp hr hc =>
    exact ⟨PartialMessage.broken_of_incomplete hc, (Header.position_eq_last.1 hp).1⟩

/-- What looks dead after a run from the empty reassembler is hopeless. -/
theorem Reassembler.hopeless_of_dead {as : List Action}
    (h : ((∅ : Reassembler).run as).get? flow = some m) (hd : m.Dead) : m.Hopeless :=
  Reassembler.pending_of_run (P := fun m => m.Dead → m.Hopeless)
    (fun _ _ _ _ hprev hstep => Step.hopeless_of_dead hprev hstep) as h hd

end MctpReceiver
