import MctpReceiver.Proofs.Runs
import Mathlib.Data.List.Basic
import Mathlib.Data.List.Induction

/-!
# What becomes of a packet

`Step` lists everything that can happen when a flow takes in a packet, each case with its condition,
its answer and the partial message that it leaves. The cases exclude each other and leave nothing
out: `ingestOne_eq_iff` says that they are exactly what `ingestOne` does. What holds of every step
is proved from the cases, and `ingestOne` is not opened again; and what every step keeps, every run
keeps (`pending_of_run`).
-/

namespace MctpReceiver

/-! ## Positions and flags -/

namespace Header

variable {h : Header}

theorem position_eq_single : h.position = .single ↔ h.som = true ∧ h.eom = true := by
  unfold position; cases h.som <;> cases h.eom <;> simp

theorem position_eq_first : h.position = .first ↔ h.som = true ∧ h.eom = false := by
  unfold position; cases h.som <;> cases h.eom <;> simp

theorem position_eq_middle : h.position = .middle ↔ h.som = false ∧ h.eom = false := by
  unfold position; cases h.som <;> cases h.eom <;> simp

theorem position_eq_last : h.position = .last ↔ h.som = false ∧ h.eom = true := by
  unfold position; cases h.som <;> cases h.eom <;> simp

theorem isFragment_eq_false : h.isFragment = false ↔ h.position = .single := by
  rw [← Bool.not_eq_true, isFragment_iff, not_not]

theorem som_eq_false (hs : h.position ≠ .single) (hf : h.position ≠ .first) : h.som = false := by
  unfold position at hs hf
  cases hsom : h.som <;> cases heom : h.eom <;> simp_all

end Header

/-! ## Following without a loss -/

theorem Sequence.distanceTo_eq_zero {s t : Sequence} : s.distanceTo t = 0 ↔ s = t := by
  revert s t; decide

namespace Fragment

/-- A fragment carries on right behind another: its sequence number is the next one, or the same one
with other flags. -/
def Continues (f g : Fragment) : Prop :=
  f.header.sequence.distanceTo g.header.sequence = 1 ∨
    f.header.sequence.distanceTo g.header.sequence = 0 ∧
      (f.header.som ≠ g.header.som ∨ f.header.eom ≠ g.header.eom)

theorem repeats_iff {f g : Fragment} :
    f.repeats g = true ↔ f.header.sequence = g.header.sequence ∧ f.header.som = g.header.som ∧
      f.header.eom = g.header.eom := by
  simp [repeats, and_assoc]

/-- Carrying on means neither to repeat nor to leave a gap. -/
theorem continues_iff {f g : Fragment} :
    f.Continues g ↔ g.repeats f = false ∧ f.lostBefore g = 0 := by
  have hrep : g.repeats f = true ↔ f.header.sequence.distanceTo g.header.sequence = 0 ∧
      f.header.som = g.header.som ∧ f.header.eom = g.header.eom := by
    rw [repeats_comm, repeats_iff, Sequence.distanceTo_eq_zero]
  rw [← Bool.not_eq_true, hrep]
  unfold Continues lostBefore
  constructor
  · rintro (h | ⟨h, hne⟩)
    · exact ⟨fun h' => by omega, by omega⟩
    · exact ⟨fun h' => hne.elim (· h'.2.1) (· h'.2.2), by omega⟩
  · rintro ⟨hne, h⟩
    by_cases h0 : f.header.sequence.distanceTo g.header.sequence = 0
    · exact Or.inr ⟨h0, by by_contra hcon; exact hne ⟨h0, by tauto⟩⟩
    · exact Or.inl (by omega)

end Fragment

/-! ## Completion -/

namespace PartialMessage

theorem completion_eq_ready {m : PartialMessage} :
    m.completion = .ready ↔ m.hasTail = true ∧ m.startFrame ≠ none ∧ m.missing = 0 := by
  unfold completion
  cases m.hasTail <;> cases m.startFrame <;> by_cases hm : 0 < m.missing <;> simp [hm] <;> omega

theorem completion_ne_unended {m : PartialMessage} (h : m.hasTail = true) :
    m.completion ≠ .unended := by
  unfold completion
  cases m.startFrame <;> by_cases hm : 0 < m.missing <;> simp [h, hm]

theorem hasTail_append (m : PartialMessage) (f : Fragment) :
    (m.append f).hasTail = (m.hasTail || f.header.eom) := rfl

end PartialMessage

/-! ## The cases -/

/-- `Step flow f pending i next`: on a flow with the partial message `pending`, if any, the packet
`f` leads to `i` and leaves `next`. -/
inductive Step (flow : Flow) (f : Fragment) :
    Option PartialMessage → Ingestion → Option PartialMessage → Prop
  /-- A whole message passes by. -/
  | single {pending} (hf : f.header.position = .single) :
      Step flow f pending ⟨.single f.payload, []⟩ pending
  | opened (hf : f.header.position = .first) :
      Step flow f none ⟨.buffered, []⟩ (some (.start f))
  | orphaned (hf : f.header.position = .middle) :
      Step flow f none ⟨.buffered, [.orphanFragment]⟩ (some (.start f))
  | orphanedEnd (hf : f.header.position = .last) :
      Step flow f none ⟨.buffered, [.orphanFragment, .desegmentationError none]⟩ (some (.start f))
  | repeated {m : PartialMessage} (hf : f.header.position ≠ .single)
      (hr : f.repeats m.latest = true) (hp : f.payload = m.latest.payload) :
      Step flow f (some m) ⟨.buffered, [.overlap]⟩ (some { m with lastFrame := f.frame })
  | conflicting {m : PartialMessage} (hf : f.header.position ≠ .single)
      (hr : f.repeats m.latest = true) (hp : f.payload ≠ m.latest.payload) :
      Step flow f (some m) ⟨.buffered, [.overlapConflict]⟩
        (some { m with lastFrame := f.frame, conflicted := true })
  | restarted {m : PartialMessage} (hf : f.header.position = .first)
      (hr : f.repeats m.latest = false) :
      Step flow f (some m) ⟨.buffered, []⟩ (some (.start f))
  | beyond {m : PartialMessage} (hf : f.header.position = .middle)
      (hr : f.repeats m.latest = false) (ht : m.hasTail = true) :
      Step flow f (some m) ⟨.buffered, [.tooLongFragment]⟩ (some { m with lastFrame := f.frame })
  | continued {m : PartialMessage} (hf : f.header.position = .middle)
      (hr : f.repeats m.latest = false) (ht : m.hasTail = false) :
      Step flow f (some m) ⟨.buffered, []⟩ (some (m.append f))
  | completed {m : PartialMessage} (hf : f.header.position = .last)
      (hr : f.repeats m.latest = false) (hc : (m.append f).completion = .ready) :
      Step flow f (some m)
        ⟨.completed ((m.append f).assemble flow f.frame),
          if m.hasTail then [.multipleTails] else []⟩ none
  | failed {m : PartialMessage} {missing : Option Nat} (hf : f.header.position = .last)
      (hr : f.repeats m.latest = false) (hc : (m.append f).completion = .incomplete missing) :
      Step flow f (some m)
        ⟨.buffered, (if m.hasTail then [.multipleTails] else []) ++ [.desegmentationError missing]⟩
        (some (m.append f))

variable {flow : Flow} {f : Fragment} {pending next : Option PartialMessage} {i : Ingestion}

theorem ingestOne_none (hf : f.header.position ≠ .single) :
    ingestOne flow none f = (PartialMessage.begin f).settle flow f := by
  unfold ingestOne
  rw [if_pos ((Header.isFragment_iff _).2 hf)]

theorem ingestOne_some {m : PartialMessage} (hf : f.header.position ≠ .single) :
    ingestOne flow (some m) f = (m.insert f).settle flow f := by
  unfold ingestOne
  rw [if_pos ((Header.isFragment_iff _).2 hf)]

/-- A fragment that does not end its message, or is dropped, settles nothing. -/
theorem Insertion.settle_open {j : Insertion} (h : (f.header.eom && j.kept) = false) :
    j.settle flow f = (⟨.buffered, j.anomalies⟩, some j.result) := by
  unfold settle
  rw [h, if_neg Bool.false_ne_true]

namespace PartialMessage

variable {m : PartialMessage}

theorem insert_of_first (hf : f.header.position = .first) (hr : f.repeats m.latest = false) :
    m.insert f = ⟨start f, [], true⟩ := by
  simp [insert, hr, (Header.position_eq_first.1 hf).1]

theorem insert_of_middle (hf : f.header.position = .middle) (hr : f.repeats m.latest = false) :
    m.insert f = if m.hasTail then ⟨{ m with lastFrame := f.frame }, [.tooLongFragment], false⟩
      else ⟨m.append f, [], true⟩ := by
  obtain ⟨hs, he⟩ := Header.position_eq_middle.1 hf
  simp [insert, hr, hs, he]

theorem insert_of_last (hf : f.header.position = .last) (hr : f.repeats m.latest = false) :
    m.insert f = ⟨m.append f, if m.hasTail then [.multipleTails] else [], true⟩ := by
  obtain ⟨hs, he⟩ := Header.position_eq_last.1 hf
  cases ht : m.hasTail <;> simp [insert, hr, hs, he, ht]

end PartialMessage

/-- Every case is what `ingestOne` does under its condition. -/
theorem Step.ingestOne_eq (h : Step flow f pending i next) :
    ingestOne flow pending f = (i, next) := by
  cases h with
  | single hf => simp [ingestOne, Header.isFragment_eq_false.2 hf]
  | opened hf =>
    obtain ⟨hs, he⟩ := Header.position_eq_first.1 hf
    rw [ingestOne_none (by simp [hf]), Insertion.settle_open (by simp [he])]
    simp [PartialMessage.begin, hs]
  | orphaned hf =>
    obtain ⟨hs, he⟩ := Header.position_eq_middle.1 hf
    rw [ingestOne_none (by simp [hf]), Insertion.settle_open (by simp [he])]
    simp [PartialMessage.begin, hs]
  | orphanedEnd hf =>
    obtain ⟨hs, he⟩ := Header.position_eq_last.1 hf
    rw [ingestOne_none (by simp [hf])]
    simp [PartialMessage.begin, Insertion.settle, PartialMessage.completion,
      PartialMessage.start, hs, he]
  | repeated hf hr hp =>
    rw [ingestOne_some hf]
    simp [PartialMessage.insert, Insertion.settle, hr, hp]
  | conflicting hf hr hp =>
    rw [ingestOne_some hf]
    simp [PartialMessage.insert, Insertion.settle, hr, hp]
  | restarted hf hr =>
    rw [ingestOne_some (by simp [hf]), PartialMessage.insert_of_first hf hr,
      Insertion.settle_open (by simp [(Header.position_eq_first.1 hf).2])]
  | beyond hf hr ht =>
    rw [ingestOne_some (by simp [hf]), PartialMessage.insert_of_middle hf hr, if_pos ht,
      Insertion.settle_open (by simp)]
  | continued hf hr ht =>
    rw [ingestOne_some (by simp [hf]), PartialMessage.insert_of_middle hf hr, if_neg (by simp [ht]),
      Insertion.settle_open (by simp [(Header.position_eq_middle.1 hf).2])]
  | completed hf hr hc =>
    rw [ingestOne_some (by simp [hf]), PartialMessage.insert_of_last hf hr]
    simp [Insertion.settle, (Header.position_eq_last.1 hf).2, hc]
  | failed hf hr hc =>
    rw [ingestOne_some (by simp [hf]), PartialMessage.insert_of_last hf hr]
    simp [Insertion.settle, (Header.position_eq_last.1 hf).2, hc]

theorem exists_step_of_repeats (flow : Flow) {m : PartialMessage}
    (hf : f.header.position ≠ .single) (hr : f.repeats m.latest = true) :
    ∃ i next, Step flow f (some m) i next := by
  by_cases hp : f.payload = m.latest.payload
  · exact ⟨_, _, .repeated hf hr hp⟩
  · exact ⟨_, _, .conflicting hf hr hp⟩

/-- In every situation one of the cases applies. -/
theorem exists_step (flow : Flow) (f : Fragment) (pending : Option PartialMessage) :
    ∃ i next, Step flow f pending i next := by
  cases hf : f.header.position with
  | single => exact ⟨_, _, .single hf⟩
  | first =>
    cases pending with
    | none => exact ⟨_, _, .opened hf⟩
    | some m =>
      by_cases hr : f.repeats m.latest = true
      · exact exists_step_of_repeats flow (by simp [hf]) hr
      · exact ⟨_, _, .restarted hf (by simpa using hr)⟩
  | middle =>
    cases pending with
    | none => exact ⟨_, _, .orphaned hf⟩
    | some m =>
      by_cases hr : f.repeats m.latest = true
      · exact exists_step_of_repeats flow (by simp [hf]) hr
      · cases ht : m.hasTail with
        | true => exact ⟨_, _, .beyond hf (by simpa using hr) ht⟩
        | false => exact ⟨_, _, .continued hf (by simpa using hr) ht⟩
  | last =>
    cases pending with
    | none => exact ⟨_, _, .orphanedEnd hf⟩
    | some m =>
      by_cases hr : f.repeats m.latest = true
      · exact exists_step_of_repeats flow (by simp [hf]) hr
      · have ht : (m.append f).hasTail = true := by
          simp [PartialMessage.hasTail_append, (Header.position_eq_last.1 hf).2]
        cases hc : (m.append f).completion with
        | ready => exact ⟨_, _, .completed hf (by simpa using hr) hc⟩
        | incomplete missing => exact ⟨_, _, .failed hf (by simpa using hr) hc⟩
        | unended => exact absurd hc (PartialMessage.completion_ne_unended ht)

/-- The cases are exactly what `ingestOne` does. -/
theorem ingestOne_eq_iff : ingestOne flow pending f = (i, next) ↔ Step flow f pending i next := by
  refine ⟨fun h => ?_, Step.ingestOne_eq⟩
  obtain ⟨i', next', hstep⟩ := exists_step flow f pending
  rw [hstep.ingestOne_eq, Prod.mk.injEq] at h
  obtain ⟨rfl, rfl⟩ := h
  exact hstep

theorem step_ingestOne (flow : Flow) (f : Fragment) (pending : Option PartialMessage) :
    Step flow f pending (ingestOne flow pending f).1 (ingestOne flow pending f).2 :=
  ingestOne_eq_iff.1 rfl

/-- One case at most applies. -/
theorem Step.unique {i' : Ingestion} {next' : Option PartialMessage}
    (h : Step flow f pending i next) (h' : Step flow f pending i' next') :
    i = i' ∧ next = next' := by
  have heq : (i, next) = (i', next') := by rw [← h.ingestOne_eq, h'.ingestOne_eq]
  exact Prod.mk.inj heq

/-- A whole message leaves what is pending alone. -/
theorem Step.of_single (h : Step flow f pending i next) (hf : f.header.position = .single) :
    i = ⟨.single f.payload, []⟩ ∧ next = pending :=
  h.unique (.single hf)

/-- A whole message passes a reassembler by. -/
theorem Reassembler.ingest_of_single (t : Reassembler) (flow : Flow)
    (hf : f.header.position = .single) : t.ingest flow f = (⟨.single f.payload, []⟩, t) := by
  obtain ⟨hi, hnext⟩ := (step_ingestOne flow f (t.get? flow)).of_single hf
  refine Prod.ext ((fst_ingest t flow f).trans hi) (ext_get? fun other => ?_)
  rw [get?_ingest, hnext]
  by_cases h : flow = other
  · rw [if_pos h, h]
  · rw [if_neg h]

/-! ## Runs -/

/-- What every step keeps holds of all that is pending on a flow after any run from nothing. -/
theorem FlowAction.pending_of_run {P : PartialMessage → Prop}
    (hstep : ∀ (f : Fragment) (pending : Option PartialMessage) (i : Ingestion) (m : PartialMessage),
      (∀ m', pending = some m' → P m') → Step flow f pending i (some m) → P m)
    (as : List FlowAction) {m : PartialMessage} (h : FlowAction.run flow none as = some m) : P m := by
  induction as using List.reverseRecOn generalizing m with
  | nil => cases h
  | append_singleton as a ih =>
    cases a with
    | filter keep =>
      rw [FlowAction.run_append] at h
      exact ih (Option.filter_eq_some_iff.1 h).1
    | ingest f =>
      have hs := step_ingestOne flow f (FlowAction.run flow none as)
      rw [← FlowAction.run_concat_ingest, h] at hs
      exact hstep f _ _ m (fun m' hm' => ih hm') hs

/-- What every step keeps holds of all that is pending after any run from the empty reassembler. -/
theorem Reassembler.pending_of_run {P : PartialMessage → Prop}
    (hstep : ∀ (f : Fragment) (pending : Option PartialMessage) (i : Ingestion) (m : PartialMessage),
      (∀ m', pending = some m' → P m') → Step flow f pending i (some m) → P m)
    (as : List Action) {m : PartialMessage} (h : ((∅ : Reassembler).run as).get? flow = some m) :
    P m := by
  rw [get?_run_empty] at h
  exact FlowAction.pending_of_run hstep _ h

end MctpReceiver
