import MctpReceiver.Proofs.Stalled

/-!
# Discarding dead messages

The owner of a reassembler may discard what will not be completed, whenever it likes, and no outcome
shows it. `outcomes_of_discarding_dead`: if the actions between the packets of a run discard only
partial messages that have no start or an end, every packet leads to the same outcome as in the run
of the packets alone, down to the whole of a completed message.

`Matches` is what ties a flow of the one run to the same flow of the other: it has the same partial
message in both, or it is stalled in both.
-/

namespace MctpReceiver

/-! ## One flow in two runs -/

/-- The flow has the same partial message in two runs, or is stalled in both. -/
inductive Matches : Option PartialMessage → Option PartialMessage → Prop
  | same (pending : Option PartialMessage) : Matches pending pending
  | stalled {pending pending' : Option PartialMessage} (h : Stalled pending)
      (h' : Stalled pending') : Matches pending pending'

namespace Matches

variable {flow : Flow} {f : Fragment} {pending pending' next next' : Option PartialMessage}
  {i i' : Ingestion}

/-- A packet leads to the same outcome in both runs, and the flow matches again. -/
theorem step (h : Matches pending pending') (hs : Step flow f pending i next)
    (hs' : Step flow f pending' i' next') : i.outcome = i'.outcome ∧ Matches next next' := by
  cases h with
  | same =>
    obtain ⟨rfl, rfl⟩ := hs.unique hs'
    exact ⟨rfl, .same _⟩
  | stalled h h' =>
    by_cases hsingle : f.header.position = .single
    · obtain ⟨rfl, rfl⟩ := hs.of_single hsingle
      obtain ⟨rfl, rfl⟩ := hs'.of_single hsingle
      exact ⟨rfl, .stalled h h'⟩
    by_cases hfirst : f.header.position = .first
    · obtain ⟨rfl, rfl⟩ := h.start hfirst hs
      obtain ⟨rfl, rfl⟩ := h'.start hfirst hs'
      exact ⟨rfl, .same _⟩
    · have hsom : f.header.som = false := Header.som_eq_false hsingle hfirst
      obtain ⟨ho, hn⟩ := h.step hsom hs
      obtain ⟨ho', hn'⟩ := h'.step hsom hs'
      exact ⟨ho.trans ho'.symm, .stalled hn hn'⟩

/-- One run may discard what is stalled in it. -/
theorem discard (h : Matches pending pending') (hs : Stalled pending') : Matches pending none := by
  cases h with
  | same => exact .stalled hs stalled_none
  | stalled h h' => exact .stalled h stalled_none

end Matches

/-! ## Two runs -/

namespace Action

def isPacket : Action → Bool
  | ingest _ _ => true
  | remove _ | filter _ | clear => false

/-- What is not a packet leaves a flow as it is or discards its partial message. -/
theorem get?_apply_of_not_isPacket {a : Action} (ha : a.isPacket = false) (t : Reassembler)
    (flow : Flow) :
    (t.apply a).get? flow = t.get? flow ∨ (t.apply a).get? flow = none := by
  have hfilter : ∀ keep : PartialMessage → Bool,
      (t.get? flow).filter keep = t.get? flow ∨ (t.get? flow).filter keep = none := by
    intro keep
    cases t.get? flow with
    | none => exact Or.inl rfl
    | some m => cases hk : keep m <;> simp [Option.filter, hk]
  rw [Reassembler.get?_apply]
  cases a with
  | ingest other f => cases ha
  | remove other =>
    by_cases h : other = flow
    · simp [on, h, FlowAction.apply]
    · simp [on, h]
  | filter keep => exact hfilter (keep flow)
  | clear => exact hfilter fun _ => false

/-- Discards all that looks dead. -/
def sweep : Action := .filter fun _ m => !m.orphan && !m.hasTail

end Action

/-- Whatever the actions of a run other than packets discard looks dead at that moment. -/
def DiscardsOnlyDead (as : List Action) : Prop :=
  ∀ before a after, as = before ++ a :: after → a.isPacket = false →
    ∀ flow m, ((∅ : Reassembler).run before).get? flow = some m →
      ((∅ : Reassembler).run (before ++ [a])).get? flow = none →
      m.orphan = true ∨ m.hasTail = true

theorem DiscardsOnlyDead.of_append {as bs : List Action} (h : DiscardsOnlyDead (as ++ bs)) :
    DiscardsOnlyDead as := by
  intro before a after has
  refine h before a (after ++ bs) ?_
  rw [has, List.append_assoc, List.cons_append]

theorem discardsOnlyDead_of_sweeps {as : List Action}
    (h : ∀ a ∈ as, a.isPacket = false → a = .sweep) : DiscardsOnlyDead as := by
  intro before a after has ha flow m hm hnone
  obtain rfl : a = .sweep := h a (by rw [has]; simp) ha
  have hsweep : ((∅ : Reassembler).run (before ++ [.sweep])).get? flow =
      (some m).filter fun m => !m.orphan && !m.hasTail := by
    rw [← hm, Reassembler.run_concat]
    exact Reassembler.get?_filter _ _ flow
  rw [hsweep] at hnone
  cases ho : m.orphan with
  | true => exact Or.inl rfl
  | false =>
    cases ht : m.hasTail with
    | true => exact Or.inr rfl
    | false => simp [Option.filter, ho, ht] at hnone

/-- The packets of a log and what became of them, irregularities apart. -/
def outcomes (log : List Entry) : List (Flow × Fragment × Outcome) :=
  log.map fun e => (e.flow, e.fragment, e.result.outcome)

/-- Every flow matches in two runs, the first of them without what is not a packet in the second, and
no packet has told them apart. -/
structure RunsMatch (packets as : List Action) : Prop where
  pending : ∀ flow, Matches (((∅ : Reassembler).run packets).get? flow)
    (((∅ : Reassembler).run as).get? flow)
  outcomes : outcomes ((∅ : Reassembler).log packets) = outcomes ((∅ : Reassembler).log as)

namespace RunsMatch

variable {packets as : List Action}

theorem ingest (h : RunsMatch packets as) (flow : Flow) (f : Fragment) :
    RunsMatch (packets ++ [.ingest flow f]) (as ++ [.ingest flow f]) := by
  obtain ⟨houtcome, hnext⟩ :=
    (h.pending flow).step (step_ingestOne flow f _) (step_ingestOne flow f _)
  constructor
  · intro other
    rw [Reassembler.run_concat, Reassembler.run_concat]
    show Matches (Reassembler.get? (Reassembler.ingest _ flow f).2 other)
      (Reassembler.get? (Reassembler.ingest _ flow f).2 other)
    rw [Reassembler.get?_ingest, Reassembler.get?_ingest]
    split
    · exact hnext
    · exact h.pending other
  · have hlog := h.outcomes
    unfold MctpReceiver.outcomes at hlog ⊢
    rw [Reassembler.log_concat_ingest, Reassembler.log_concat_ingest, List.map_append,
      List.map_append, hlog, List.map_singleton, List.map_singleton, Reassembler.fst_ingest,
      Reassembler.fst_ingest, houtcome]

theorem discard {a : Action} (h : RunsMatch packets as) (ha : a.isPacket = false)
    (hdead : ∀ flow m, ((∅ : Reassembler).run as).get? flow = some m →
      ((∅ : Reassembler).run (as ++ [a])).get? flow = none → m.Dead) :
    RunsMatch packets (as ++ [a]) := by
  constructor
  · intro flow
    rcases a.get?_apply_of_not_isPacket ha ((∅ : Reassembler).run as) flow with hget | hget
    · rw [Reassembler.run_concat, hget]
      exact h.pending flow
    · rw [← Reassembler.run_concat] at hget
      rw [hget]
      exact (h.pending flow).discard fun m hm =>
        Reassembler.hopeless_of_dead hm (hdead flow m hm hget)
  · rw [h.outcomes, Reassembler.log_append]
    cases a with
    | ingest => cases ha
    | remove | filter | clear => simp [Reassembler.log, Reassembler.logged?]

end RunsMatch

/-- As long as only the dead are discarded, a run matches the run of its packets. -/
theorem runsMatch_of_discardsOnlyDead (as : List Action) (h : DiscardsOnlyDead as) :
    RunsMatch (as.filter (·.isPacket)) as := by
  induction as using List.reverseRecOn with
  | nil => exact ⟨fun _ => .same _, rfl⟩
  | append_singleton as a ih =>
    have ih := ih h.of_append
    rw [List.filter_append]
    cases ha : a.isPacket with
    | true =>
      cases a with
      | remove | filter | clear => cases ha
      | ingest flow f => exact ih.ingest flow f
    | false =>
      rw [List.filter_cons_of_neg (by simp [ha]), List.filter_nil, List.append_nil]
      exact ih.discard ha (h as a [] rfl ha)

/-- **Discarding the dead is not seen.** Between the packets of a run, partial messages may be
discarded at any time as long as each of them, at that time, has no start or has an end. No packet
leads to another outcome for it. -/
theorem outcomes_of_discarding_dead (as : List Action) (h : DiscardsOnlyDead as) :
    outcomes ((∅ : Reassembler).log as) =
      outcomes ((∅ : Reassembler).log (as.filter (·.isPacket))) :=
  (runsMatch_of_discardsOnlyDead as h).outcomes.symm

/-- An end without a start is swept away before a message arrives on its flow. -/
theorem sweeps_not_seen :
    (outcomes ((∅ : Reassembler).log
      [.ingest ⟨⟨8, 16⟩, ⟨true, 3⟩⟩ ⟨.ofFlags .one ⟨8, 16⟩ 0x5b, [0x09], 0⟩,
        .sweep,
        .ingest ⟨⟨8, 16⟩, ⟨true, 3⟩⟩ ⟨.ofFlags .one ⟨8, 16⟩ 0x8b, [0x01], 1⟩,
        .sweep,
        .ingest ⟨⟨8, 16⟩, ⟨true, 3⟩⟩ ⟨.ofFlags .one ⟨8, 16⟩ 0x5b, [0x02], 2⟩])).map (·.2.2) =
      [.buffered, .buffered,
        .completed ⟨⟨⟨8, 16⟩, ⟨true, 3⟩⟩, [0x01, 0x02], 1, 2, [1, 2], false⟩] := by
  rw [outcomes_of_discarding_dead _ (discardsOnlyDead_of_sweeps (by simp [Action.isPacket]))]
  have hpackets := Reassembler.log_ingest ∅ ⟨⟨8, 16⟩, ⟨true, 3⟩⟩
    [⟨.ofFlags .one ⟨8, 16⟩ 0x5b, [0x09], 0⟩, ⟨.ofFlags .one ⟨8, 16⟩ 0x8b, [0x01], 1⟩,
      ⟨.ofFlags .one ⟨8, 16⟩ 0x5b, [0x02], 2⟩]
  rw [Reassembler.get?_emptyCollection] at hpackets
  show (outcomes ((∅ : Reassembler).log (List.map _ [_, _, _]))).map _ = _
  rw [hpackets]
  decide

end MctpReceiver
