import MctpReceiver.Proofs.WellFormed

/-!
# What a fragment does

In every reassembler that can be reached, what becomes of a fragment is settled by what is pending on
its flow, by the latest fragment of that, and by the fragment's own flags. `FragmentLaw` is the whole
law, one field for each case with its answer and what is pending then, and `fragment_law` says that it
holds after any run and that no other flow is touched.

Two of the cases are told by the summary that a partial message keeps: a start was never seen just if
the message is an orphan, and an end can only complete a message that had no end before. Both come from
the message being well-formed, and neither holds of every partial message that could be written down.
-/

namespace MctpReceiver

/-! ## The parts of the law -/

/-- The fragments have the same sequence number and the same flags. -/
def Fragment.Agrees (f g : Fragment) : Prop :=
  f.header.sequence = g.header.sequence ∧ f.header.som = g.header.som ∧ f.header.eom = g.header.eom

instance (f g : Fragment) : Decidable (f.Agrees g) := inferInstanceAs (Decidable (_ ∧ _ ∧ _))

namespace PartialMessage

/-- The partial message consists of one fragment, and nothing is known of any before it. -/
structure HoldsAlone (m : PartialMessage) (f : Fragment) : Prop where
  fragments : m.fragments = [f]
  missing : m.missing = 0
  hasTail : m.hasTail = f.header.eom
  startFrame : m.startFrame = if f.header.som then some f.frame else none
  lastFrame : m.lastFrame = f.frame
  orphan : m.orphan = !f.header.som
  conflicted : m.conflicted = false

/-- The number of fragments missing once a fragment is added: a sequence number that goes on by more
than one leaves a gap. -/
def missingWith (m : PartialMessage) (f : Fragment) : Nat :=
  m.missing + (m.latest.header.sequence.distanceTo f.header.sequence - 1)

/-- The partial message is an earlier one with a fragment added at its end. -/
structure Extends (m' m : PartialMessage) (f : Fragment) : Prop where
  fragments : m'.fragments = m.fragments ++ [f]
  missing : m'.missing = m.missingWith f
  hasTail : m'.hasTail = (m.hasTail || f.header.eom)
  startFrame : m'.startFrame = m.startFrame
  lastFrame : m'.lastFrame = f.frame
  orphan : m'.orphan = m.orphan
  conflicted : m'.conflicted = m.conflicted

/-- The message that a partial message makes up with an end. -/
def endedBy (m : PartialMessage) (flow : Flow) (f : Fragment) (startFrame : FrameId) : Message where
  flow
  payload := m.payload ++ f.payload
  startFrame
  completedIn := f.frame
  frames := m.frames ++ [f.frame]
  conflicted := m.conflicted

/-- What is told of a further end. -/
def secondTail (m : PartialMessage) : List Anomaly := if m.hasTail then [.multipleTails] else []

theorem holdsAlone_start (f : Fragment) : (start f).HoldsAlone f where
  fragments := rfl
  missing := rfl
  hasTail := rfl
  startFrame := rfl
  lastFrame := rfl
  orphan := rfl
  conflicted := rfl

theorem extends_append (m : PartialMessage) (f : Fragment) : (m.append f).Extends m f where
  fragments := fragments_append m f
  missing := rfl
  hasTail := rfl
  startFrame := rfl
  lastFrame := rfl
  orphan := rfl
  conflicted := rfl

/-! ## What the summary tells -/

theorem hasTail_append_of_eom (m : PartialMessage) {f : Fragment} (h : f.header.eom = true) :
    (m.append f).hasTail = true := by
  rw [hasTail_append, h, Bool.or_true]

variable {m : PartialMessage} {first : Fragment} {rest : List Fragment}

theorem assemble_append {flow : Flow} {f : Fragment} {startFrame : FrameId}
    (h : m.startFrame = some startFrame) :
    (m.append f).assemble flow f.frame = m.endedBy flow f startFrame := by
  unfold assemble frames endedBy
  rw [payload_append, fragments_append, List.map_append]
  show Message.mk flow _ (m.startFrame.getD f.frame) _ _ _ = _
  rw [h]
  rfl

theorem WellFormed.startFrame_eq_none (h : m.WellFormed first rest) :
    m.startFrame = none ↔ m.orphan = true := by
  rw [h.startFrame, h.orphan]
  cases first.header.som <;> simp

/-- Without a start, what has an end is told to have none. -/
theorem completion_of_orphan (ht : m.hasTail = true) (hs : m.startFrame = none) :
    m.completion = .incomplete none := by
  unfold completion
  simp [ht, hs]

/-- With a start, what has an end is told to lack so many fragments. -/
theorem completion_of_missing (ht : m.hasTail = true) (hs : m.startFrame ≠ none)
    (hm : 0 < m.missing) : m.completion = .incomplete (some m.missing) := by
  obtain ⟨frame, hframe⟩ := Option.ne_none_iff_exists'.1 hs
  unfold completion
  simp [ht, hframe, hm]

end PartialMessage

/-! ## The law -/

/-- `FragmentLaw flow p pending i next`: on a flow with the partial message `pending`, if any, the
fragment `p` is answered by `i` and leaves `next`. The cases go from the first that applies to the
last: nothing is pending; the latest fragment is repeated; a message starts; the end is behind it; or
the fragment is added, and if it ends the message that is told to be an orphan, to have gaps, or to be
complete. -/
structure FragmentLaw (flow : Flow) (p : Fragment) (pending : Option PartialMessage) (i : Ingestion)
    (next : Option PartialMessage) : Prop where
  opened : pending = none → p.header.som = true →
    i = ⟨.buffered, []⟩ ∧ ∃ m', next = some m' ∧ m'.HoldsAlone p
  orphaned : pending = none → p.header.som = false →
    i = ⟨.buffered, .orphanFragment ::
        if p.header.eom then [.desegmentationError none] else []⟩ ∧
      ∃ m', next = some m' ∧ m'.HoldsAlone p
  repeated : ∀ m, pending = some m → p.Agrees m.latest → p.payload = m.latest.payload →
    i = ⟨.buffered, [.overlap]⟩ ∧ next = some { m with lastFrame := p.frame }
  conflicting : ∀ m, pending = some m → p.Agrees m.latest → p.payload ≠ m.latest.payload →
    i = ⟨.buffered, [.overlapConflict]⟩ ∧
      next = some { m with lastFrame := p.frame, conflicted := true }
  restarted : ∀ m, pending = some m → ¬ p.Agrees m.latest → p.header.som = true →
    i = ⟨.buffered, []⟩ ∧ ∃ m', next = some m' ∧ m'.HoldsAlone p
  beyond : ∀ m, pending = some m → ¬ p.Agrees m.latest → p.header.som = false →
    m.hasTail = true → p.header.eom = false →
      i = ⟨.buffered, [.tooLongFragment]⟩ ∧ next = some { m with lastFrame := p.frame }
  continued : ∀ m, pending = some m → ¬ p.Agrees m.latest → p.header.som = false →
    m.hasTail = false → p.header.eom = false →
      i = ⟨.buffered, []⟩ ∧ ∃ m', next = some m' ∧ m'.Extends m p
  endedOrphan : ∀ m, pending = some m → ¬ p.Agrees m.latest → p.header.som = false →
    p.header.eom = true → m.orphan = true →
      i = ⟨.buffered, m.secondTail ++ [.desegmentationError none]⟩ ∧
        ∃ m', next = some m' ∧ m'.Extends m p
  endedShort : ∀ m, pending = some m → ¬ p.Agrees m.latest → p.header.som = false →
    p.header.eom = true → m.orphan = false → 0 < m.missingWith p →
      i = ⟨.buffered, m.secondTail ++ [.desegmentationError (some (m.missingWith p))]⟩ ∧
        ∃ m', next = some m' ∧ m'.Extends m p
  completed : ∀ m, pending = some m → ¬ p.Agrees m.latest → p.header.som = false →
    p.header.eom = true → m.orphan = false → m.missingWith p = 0 →
      m.hasTail = false ∧ next = none ∧ ∃ startFrame, m.startFrame = some startFrame ∧
        i = ⟨.completed (m.endedBy flow p startFrame), []⟩

section Law

variable {flow : Flow} {p : Fragment} {m : PartialMessage} {pending next : Option PartialMessage}
  {i : Ingestion} {first : Fragment} {rest : List Fragment}

theorem Fragment.not_agrees {f g : Fragment} : ¬ f.Agrees g ↔ f.repeats g = false := by
  rw [← Bool.not_eq_true, Fragment.repeats_iff]
  rfl

/-- An end of message that completes nothing is added and told why. -/
theorem Step.of_incomplete {missing : Option Nat} (hstep : Step flow p (some m) i next)
    (hf : p.header.position = .last) (hr : p.repeats m.latest = false)
    (hc : (m.append p).completion = .incomplete missing) :
    i = ⟨.buffered, m.secondTail ++ [.desegmentationError missing]⟩ ∧
      ∃ m', next = some m' ∧ m'.Extends m p := by
  obtain ⟨rfl, rfl⟩ := hstep.unique (.failed hf hr hc)
  exact ⟨rfl, _, rfl, m.extends_append p⟩

/-- An end of message that leaves no gap behind a start completes a well-formed message, which had no
end before. -/
theorem Step.of_complete (hw : m.WellFormed first rest) (hstep : Step flow p (some m) i next)
    (hf : p.header.position = .last) (hr : p.repeats m.latest = false) (ho : m.orphan = false)
    (hm : m.missingWith p = 0) :
    m.hasTail = false ∧ next = none ∧ ∃ startFrame, m.startFrame = some startFrame ∧
      i = ⟨.completed (m.endedBy flow p startFrame), []⟩ := by
  have hstart : m.startFrame ≠ none := by
    rw [Ne, hw.startFrame_eq_none, ho]
    exact Bool.false_ne_true
  have htail : m.hasTail = false := by
    by_contra ht
    rcases hw.orphan_or_missing (by simpa using ht) with h | h
    · rw [ho] at h
      cases h
    · unfold PartialMessage.missingWith at hm
      omega
  have hready : (m.append p).completion = .ready := PartialMessage.completion_eq_ready.2
    ⟨m.hasTail_append_of_eom (Header.position_eq_last.1 hf).2, hstart, hm⟩
  obtain ⟨startFrame, hframe⟩ := Option.ne_none_iff_exists'.1 hstart
  obtain ⟨rfl, rfl⟩ := hstep.unique (.completed hf hr hready)
  refine ⟨htail, rfl, startFrame, hframe, ?_⟩
  rw [htail, PartialMessage.assemble_append hframe, if_neg Bool.false_ne_true]

/-- What becomes of a fragment follows the law if what is pending is well-formed. -/
theorem Step.law (hw : ∀ m, pending = some m → ∃ first rest, m.WellFormed first rest)
    (hp : ¬ (p.header.som = true ∧ p.header.eom = true)) (hstep : Step flow p pending i next) :
    FragmentLaw flow p pending i next := by
  have hne : p.header.position ≠ .single := fun h => hp (Header.position_eq_single.1 h)
  have hfirst : p.header.som = true → p.header.position = .first := fun hs =>
    Header.position_eq_first.2 ⟨hs, by simpa [hs] using hp⟩
  constructor
  case opened =>
    rintro rfl hs
    obtain ⟨rfl, rfl⟩ := hstep.unique (.opened (hfirst hs))
    exact ⟨rfl, _, rfl, PartialMessage.holdsAlone_start p⟩
  case orphaned =>
    rintro rfl hs
    cases he : p.header.eom with
    | false =>
      obtain ⟨rfl, rfl⟩ := hstep.unique (.orphaned (Header.position_eq_middle.2 ⟨hs, he⟩))
      exact ⟨rfl, _, rfl, PartialMessage.holdsAlone_start p⟩
    | true =>
      obtain ⟨rfl, rfl⟩ := hstep.unique (.orphanedEnd (Header.position_eq_last.2 ⟨hs, he⟩))
      exact ⟨rfl, _, rfl, PartialMessage.holdsAlone_start p⟩
  case repeated =>
    rintro m rfl hr hpayload
    exact hstep.unique (.repeated hne (Fragment.repeats_iff.2 hr) hpayload)
  case conflicting =>
    rintro m rfl hr hpayload
    exact hstep.unique (.conflicting hne (Fragment.repeats_iff.2 hr) hpayload)
  case restarted =>
    rintro m rfl hr hs
    obtain ⟨rfl, rfl⟩ := hstep.unique (.restarted (hfirst hs) (Fragment.not_agrees.1 hr))
    exact ⟨rfl, _, rfl, PartialMessage.holdsAlone_start p⟩
  case beyond =>
    rintro m rfl hr hs ht he
    exact hstep.unique
      (.beyond (Header.position_eq_middle.2 ⟨hs, he⟩) (Fragment.not_agrees.1 hr) ht)
  case continued =>
    rintro m rfl hr hs ht he
    obtain ⟨rfl, rfl⟩ := hstep.unique
      (.continued (Header.position_eq_middle.2 ⟨hs, he⟩) (Fragment.not_agrees.1 hr) ht)
    exact ⟨rfl, _, rfl, m.extends_append p⟩
  case endedOrphan =>
    rintro m rfl hr hs he ho
    obtain ⟨first, rest, hwm⟩ := hw m rfl
    exact hstep.of_incomplete (Header.position_eq_last.2 ⟨hs, he⟩) (Fragment.not_agrees.1 hr)
      (PartialMessage.completion_of_orphan (m.hasTail_append_of_eom he) (hwm.startFrame_eq_none.2 ho))
  case endedShort =>
    rintro m rfl hr hs he ho hm
    obtain ⟨first, rest, hwm⟩ := hw m rfl
    have hstart : (m.append p).startFrame ≠ none := by
      show m.startFrame ≠ none
      rw [Ne, hwm.startFrame_eq_none, ho]
      exact Bool.false_ne_true
    exact hstep.of_incomplete (Header.position_eq_last.2 ⟨hs, he⟩) (Fragment.not_agrees.1 hr)
      (PartialMessage.completion_of_missing (m.hasTail_append_of_eom he) hstart hm)
  case completed =>
    rintro m rfl hr hs he ho hm
    obtain ⟨first, rest, hwm⟩ := hw m rfl
    exact hstep.of_complete hwm (Header.position_eq_last.2 ⟨hs, he⟩) (Fragment.not_agrees.1 hr) ho hm

end Law

/-- What is pending after a run is well-formed. -/
theorem Reassembler.wellFormed_of_run (as : List Action) (flow : Flow) (m : PartialMessage)
    (h : ((∅ : Reassembler).run as).get? flow = some m) : ∃ first rest, m.WellFormed first rest :=
  pending_of_run (P := fun m => ∃ first rest, m.WellFormed first rest)
    (fun _ _ _ _ hprev hstep => Step.wellFormed hprev hstep) as h

/-- **What a fragment does.** After any run from the empty reassembler, a packet that is not a whole
message follows the law on its flow and leaves the others as they were. -/
theorem fragment_law (as : List Action) (flow : Flow) (p : Fragment)
    (hp : ¬ (p.header.som = true ∧ p.header.eom = true)) :
    FragmentLaw flow p (((∅ : Reassembler).run as).get? flow)
        (((∅ : Reassembler).run as).ingest flow p).1
        ((((∅ : Reassembler).run as).ingest flow p).2.get? flow) ∧
      ∀ other, other ≠ flow → (((∅ : Reassembler).run as).ingest flow p).2.get? other =
        ((∅ : Reassembler).run as).get? other := by
  constructor
  · rw [Reassembler.get?_ingest, if_pos rfl, Reassembler.fst_ingest]
    exact (step_ingestOne flow p _).law (Reassembler.wellFormed_of_run as flow) hp
  · intro other hother
    rw [Reassembler.get?_ingest, if_neg hother.symm]

/-- A start of message, and an end behind two lost fragments. -/
def cutShort (flow : Flow) : List Action :=
  [.ingest flow ⟨.ofFlags .one flow.endpoints 0x8b, [0x01], 0⟩,
    .ingest flow ⟨.ofFlags .one flow.endpoints 0x7b, [0x02], 1⟩]

/-- Another end behind that is told to be one too many, and why it completes nothing either. -/
theorem second_end_answered :
    ¬ ((Header.ofFlags .one ⟨8, 16⟩ 0x4b).som = true ∧
        (Header.ofFlags .one ⟨8, 16⟩ 0x4b).eom = true) ∧
      (((∅ : Reassembler).run (cutShort ⟨⟨8, 16⟩, ⟨true, 3⟩⟩)).ingest ⟨⟨8, 16⟩, ⟨true, 3⟩⟩
          ⟨.ofFlags .one ⟨8, 16⟩ 0x4b, [0x03], 2⟩).1 =
        ⟨.buffered, [.multipleTails, .desegmentationError (some 2)]⟩ := by
  have hp : ¬ ((Header.ofFlags .one ⟨8, 16⟩ 0x4b).som = true ∧
      (Header.ofFlags .one ⟨8, 16⟩ 0x4b).eom = true) := by decide
  obtain ⟨hlaw, -⟩ := fragment_law (cutShort ⟨⟨8, 16⟩, ⟨true, 3⟩⟩) ⟨⟨8, 16⟩, ⟨true, 3⟩⟩
    ⟨.ofFlags .one ⟨8, 16⟩ 0x4b, [0x03], 2⟩ hp
  have hpending : ((∅ : Reassembler).run (cutShort ⟨⟨8, 16⟩, ⟨true, 3⟩⟩)).get?
      ⟨⟨8, 16⟩, ⟨true, 3⟩⟩ =
        some
          { latest := ⟨.ofFlags .one ⟨8, 16⟩ 0x7b, [0x02], 1⟩
            earlier := [⟨.ofFlags .one ⟨8, 16⟩ 0x8b, [0x01], 0⟩]
            missing := 2, hasTail := true, startFrame := some 0, lastFrame := 1, orphan := false
            conflicted := false } := by
    rw [Reassembler.get?_run_empty]
    decide
  exact ⟨hp, (hlaw.endedShort _ hpending (by decide) (by decide) (by decide) rfl (by decide)).1⟩

end MctpReceiver
