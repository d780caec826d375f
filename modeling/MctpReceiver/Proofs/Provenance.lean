import MctpReceiver.Proofs.Runs
import MctpReceiver.Proofs.Unbroken
import Mathlib.Data.List.Induction

/-!
# Where a completed message comes from

After any run from the empty reassembler, whatever malformed packets it contains, a message that is
completed was sent as such: `completed_from_fragments` finds its fragments among the packets that
were taken in on its flow since the flow last had no partial message, from a start of message to the
packet that completes it, one carrying on right behind the other; and all that came between them was
a whole message of its own or a reported repetition.

The invariant behind it is `Accounted`: a pending message is broken and can never be completed, or it
is unbroken and its fragments can be traced through the run. `Accounted.step` has one case for each
thing that can happen to a packet, and `accounted_of_run` follows by induction on the run. An end of
message that does not complete an unbroken message breaks it, so a message with an end never becomes
ready again.
-/

namespace MctpReceiver

/-! ## Tracing a run -/

/-- `Gathers q es qs latest`: of the packets `es` that were taken in after the fragment `q`, those
kept behind it are `qs`, and `latest` was kept last. Every other packet holds a whole message, or
repeats the fragment kept last before it and was reported for that. -/
inductive Gathers (q : Fragment) : List Entry → List Fragment → Fragment → Prop
  | nil : Gathers q [] [] q
  | single {es : List Entry} {qs : List Fragment} {latest : Fragment} {e : Entry}
      (h : Gathers q es qs latest) (he : e.fragment.header.position = .single) :
      Gathers q (es ++ [e]) qs latest
  | repeated {es : List Entry} {qs : List Fragment} {latest : Fragment} {e : Entry}
      (h : Gathers q es qs latest) (hr : e.fragment.repeats latest = true)
      (ha : e.result.anomalies = [.overlap] ∨ e.result.anomalies = [.overlapConflict]) :
      Gathers q (es ++ [e]) qs latest
  | kept {es : List Entry} {qs : List Fragment} {latest : Fragment} {e : Entry}
      (h : Gathers q es qs latest) : Gathers q (es ++ [e]) (qs ++ [e.fragment]) e.fragment

/-- In a run of a flow from no partial message, the flow has had one ever since it took in the
fragment `q`, and what was kept behind `q` is `qs`. -/
structure Trace (flow : Flow) (as before : List FlowAction) (q : Fragment)
    (after : List FlowAction) (qs : List Fragment) (latest : Fragment) : Prop where
  run_eq : as = before ++ .ingest q :: after
  pending : ∀ bs, bs <+: after → (FlowAction.run flow none (before ++ .ingest q :: bs)).isSome
  gathers : Gathers q
    (FlowAction.log flow (FlowAction.run flow none (before ++ [.ingest q])) after) qs latest

section Trace

variable {flow : Flow} {as before after : List FlowAction} {q f latest latest' : Fragment}
  {qs qs' : List Fragment}

theorem trace_start (h : (FlowAction.run flow none (as ++ [.ingest f])).isSome) :
    Trace flow (as ++ [.ingest f]) as f [] [] f where
  run_eq := rfl
  pending := by
    intro bs hbs
    rwa [List.prefix_nil.1 hbs]
  gathers := .nil

/-- A trace goes on as long as the flow keeps a partial message. -/
theorem Trace.concat (h : Trace flow as before q after qs latest) (a : FlowAction)
    (hp : (FlowAction.run flow none (as ++ [a])).isSome)
    (hg : Gathers q (FlowAction.log flow (FlowAction.run flow none (before ++ [.ingest q])) after ++
      (a.logged? flow (FlowAction.run flow none as)).toList) qs' latest') :
    Trace flow (as ++ [a]) before q (after ++ [a]) qs' latest' where
  run_eq := by rw [h.run_eq, List.append_assoc, List.cons_append]
  pending := by
    intro bs hbs
    rcases List.prefix_concat_iff.1 hbs with rfl | hbs
    · rwa [h.run_eq, List.append_assoc, List.cons_append] at hp
    · exact h.pending bs hbs
  gathers := by
    have hrun : FlowAction.run flow (FlowAction.run flow none (before ++ [.ingest q])) after =
        FlowAction.run flow none as := by
      rw [← FlowAction.run_append, h.run_eq, List.append_assoc, List.singleton_append]
    rw [FlowAction.log_append, hrun]
    simpa [FlowAction.log] using hg

/-- A partial message after a run of a flow is broken, or its fragments can be traced. -/
def Accounted (flow : Flow) (as : List FlowAction) (m : PartialMessage) : Prop :=
  m.Broken ∨ ∃ before q after qs, Trace flow as before q after qs m.latest ∧ m.Unbroken q qs

variable {m : PartialMessage}

theorem accounted_start (hf : f.header.position = .first)
    (hp : (FlowAction.run flow none (as ++ [.ingest f])).isSome) :
    Accounted flow (as ++ [.ingest f]) (.start f) :=
  Or.inr ⟨as, f, [], [], trace_start hp, PartialMessage.unbroken_start hf⟩

/-- An action that leaves the fragments as they are can be told from the log. -/
theorem Accounted.pass (h : Accounted flow as m) {a : FlowAction} (frame : FrameId)
    (conflicted : Bool) (hp : (FlowAction.run flow none (as ++ [a])).isSome)
    (hg : ∀ q es qs, Gathers q es qs m.latest →
      Gathers q (es ++ (a.logged? flow (FlowAction.run flow none as)).toList) qs m.latest) :
    Accounted flow (as ++ [a]) { m with lastFrame := frame, conflicted := conflicted } := by
  rcases h with hb | ⟨before, q, after, qs, ht, hu⟩
  · exact Or.inl hb
  · exact Or.inr ⟨before, q, after ++ [a], qs, ht.concat a hp (hg q _ qs ht.gathers),
      hu.touch frame conflicted⟩

/-- A fragment without flags is traced if it carries on, and breaks the message if it does not. -/
theorem Accounted.append (h : Accounted flow as m) (hf : f.header.position = .middle)
    (hr : f.repeats m.latest = false)
    (hp : (FlowAction.run flow none (as ++ [.ingest f])).isSome) :
    Accounted flow (as ++ [.ingest f]) (m.append f) := by
  rcases h with hb | ⟨before, q, after, qs, ht, hu⟩
  · exact Or.inl (hb.append f)
  · by_cases hc : m.latest.Continues f
    · exact Or.inr ⟨before, q, after ++ [.ingest f], qs ++ [f], ht.concat _ hp ht.gathers.kept,
        hu.append hf hc⟩
    · exact Or.inl (PartialMessage.broken_append_of_not_continues hr hc)

/-- An end of message that does not complete it breaks it. -/
theorem Accounted.fail (h : Accounted flow as m) {missing : Option Nat}
    (hf : f.header.position = .last) (hr : f.repeats m.latest = false)
    (hc : (m.append f).completion = .incomplete missing) : (m.append f).Broken := by
  rcases h with hb | ⟨_, _, _, _, -, hu⟩
  · exact hb.append f
  · refine PartialMessage.broken_append_of_not_continues hr fun hcon => ?_
    rw [(hu.completion_append hf hr).2 hcon] at hc
    cases hc

/-- A packet leaves the partial message of its flow accounted for. -/
theorem Accounted.step {i : Ingestion}
    (h : ∀ m', FlowAction.run flow none as = some m' → Accounted flow as m')
    (hstep : Step flow f (FlowAction.run flow none as) i (some m)) :
    Accounted flow (as ++ [.ingest f]) m := by
  have hingest := hstep.ingestOne_eq
  have hp : (FlowAction.run flow none (as ++ [.ingest f])).isSome := by
    rw [FlowAction.run_concat_ingest, hingest]
    rfl
  have hlogged : (FlowAction.ingest f).logged? flow (FlowAction.run flow none as) =
      some ⟨flow, f, i⟩ := by
    rw [FlowAction.logged?, hingest]
  generalize hpend : FlowAction.run flow none as = pending at hstep
  cases hstep with
  | single hf =>
    refine (h m hpend).pass m.lastFrame m.conflicted hp fun q es qs hg => ?_
    rw [hlogged]
    exact hg.single hf
  | opened hf => exact accounted_start hf hp
  | orphaned hf => exact Or.inl (PartialMessage.broken_start (Header.position_eq_middle.1 hf).1)
  | orphanedEnd hf => exact Or.inl (PartialMessage.broken_start (Header.position_eq_last.1 hf).1)
  | @repeated m' hf hr =>
    refine (h m' hpend).pass f.frame m'.conflicted hp fun q es qs hg => ?_
    rw [hlogged]
    exact hg.repeated hr (Or.inl rfl)
  | @conflicting m' hf hr =>
    refine (h m' hpend).pass f.frame true hp fun q es qs hg => ?_
    rw [hlogged]
    exact hg.repeated hr (Or.inr rfl)
  | restarted hf hr => exact accounted_start hf hp
  | @beyond m' hf hr ht =>
    -- Only a broken message has an end and is still pending.
    rcases h m' hpend with hb | ⟨_, _, _, _, -, hu⟩
    · exact Or.inl hb
    · exact absurd ht (by simp [hu.hasTail])
  | @continued m' hf hr ht => exact (h m' hpend).append hf hr hp
  | @failed m' missing hf hr hc => exact Or.inl ((h m' hpend).fail hf hr hc)

/-- What is pending after a run is accounted for. -/
theorem accounted_of_run (flow : Flow) (as : List FlowAction) (m : PartialMessage)
    (hrun : FlowAction.run flow none as = some m) : Accounted flow as m := by
  induction as using List.reverseRecOn generalizing m with
  | nil => cases hrun
  | append_singleton as a ih =>
    cases a with
    | filter keep =>
      have hp : (FlowAction.run flow none (as ++ [.filter keep])).isSome := by rw [hrun]; rfl
      rw [FlowAction.run_append] at hrun
      obtain ⟨hm, -⟩ := Option.filter_eq_some_iff.1 hrun
      exact (ih m hm).pass m.lastFrame m.conflicted hp fun q es qs hg => by
        rwa [FlowAction.logged?, Option.toList_none, List.append_nil]
    | ingest f =>
      have hstep := step_ingestOne flow f (FlowAction.run flow none as)
      rw [← FlowAction.run_concat_ingest, hrun] at hstep
      exact Accounted.step ih hstep

/-- A message that is completed was unbroken, and its last fragment carries on behind the others. -/
theorem trace_of_completed {as : List FlowAction} {p : Fragment} {message : Message}
    (h : (ingestOne flow (FlowAction.run flow none as) p).1.outcome = .completed message) :
    ∃ (m : PartialMessage) (before : List FlowAction) (q : Fragment) (after : List FlowAction)
      (qs : List Fragment), Trace flow as before q after qs m.latest ∧ m.Unbroken q qs ∧
      p.header.position = .last ∧ m.latest.Continues p ∧
      ingestOne flow (FlowAction.run flow none as) p =
        (⟨.completed ((m.append p).assemble flow p.frame), []⟩, none) := by
  have hstep := step_ingestOne flow p (FlowAction.run flow none as)
  generalize hi : ingestOne flow (FlowAction.run flow none as) p = r at h hstep
  obtain ⟨i, next⟩ := r
  generalize hpend : FlowAction.run flow none as = pending at hstep hi
  cases hstep with
  | @completed m hf hr hc =>
    rcases accounted_of_run flow as m hpend with hb | ⟨before, q, after, qs, ht, hu⟩
    · exact absurd hc (hb.append p).completion_ne_ready
    · refine ⟨m, before, q, after, qs, ht, hu, hf, (hu.completion_append hf hr).1 hc, ?_⟩
      rw [hu.hasTail, if_neg Bool.false_ne_true]
  | single | opened | orphaned | orphanedEnd | repeated | conflicting | restarted | beyond
  | continued | failed => cases h

end Trace

/-! ## The completed message -/

theorem Reassembler.contains_eq (t : Reassembler) (flow : Flow) :
    t.contains flow = (t.get? flow).isSome := by
  simp [contains, get?]

/-- **Provenance.** If a packet `p` completes a message after a run from the empty reassembler, then
its fragments are a start of message `q`, some fragments `qs` without either flag and the end `p`,
taken in on the flow in this order while it never was without a partial message. -/
theorem completed_from_fragments (as : List Action) (flow : Flow) (p : Fragment) (message : Message)
    (h : (((∅ : Reassembler).run as).ingest flow p).1.outcome = .completed message) :
    ∃ (before : List Action) (q : Fragment) (after : List Action) (qs : List Fragment)
      (latest : Fragment),
      as = before ++ .ingest flow q :: after ∧
      (∀ bs, bs <+: after →
        ((∅ : Reassembler).run (before ++ .ingest flow q :: bs)).contains flow) ∧
      Gathers q ((((∅ : Reassembler).run (before ++ [.ingest flow q])).log after).filter
        (·.flow = flow)) qs latest ∧
      q.header.position = .first ∧ (∀ r ∈ qs, r.header.position = .middle) ∧
      p.header.position = .last ∧
      List.IsChain Fragment.Continues (q :: (qs ++ [p])) ∧
      message.payload = (q :: (qs ++ [p])).flatMap (·.payload) ∧
      message.frames = (q :: (qs ++ [p])).map (·.frame) ∧
      message.startFrame = q.frame ∧ message.completedIn = p.frame ∧ message.flow = flow ∧
      (((∅ : Reassembler).run as).ingest flow p).1.anomalies = [] ∧
      (((∅ : Reassembler).run as).ingest flow p).2.get? flow = none := by
  have hget : ∀ bs : List Action, ((∅ : Reassembler).run bs).get? flow =
      FlowAction.run flow none (bs.filterMap (·.on flow)) := by
    intro bs
    rw [Reassembler.get?_run, Reassembler.get?_emptyCollection]
  rw [Reassembler.get?_ingest, if_pos rfl, Reassembler.fst_ingest, hget as] at *
  obtain ⟨m, xs, q, ys, qs, ht, hu, hp, hc, hi⟩ := trace_of_completed h
  obtain ⟨before, after, rfl, rfl, rfl⟩ := Action.exists_split_of_on ht.run_eq
  rw [hi] at h ⊢
  obtain rfl : (m.append p).assemble flow p.frame = message := Outcome.completed.inj h
  have hfragments : (m.append p).fragments = q :: (qs ++ [p]) := by
    rw [PartialMessage.fragments_append, hu.fragments, List.cons_append]
  have hon : (Action.ingest flow q).on flow = some (.ingest q) := by simp [Action.on]
  refine ⟨before, q, after, qs, m.latest, rfl, ?_, ?_, hu.first, hu.middle, hp,
    hu.chain_concat hc, ?_, ?_, ?_, rfl, rfl, rfl, rfl⟩
  · rintro bs ⟨cs, rfl⟩
    rw [Reassembler.contains_eq, hget, List.filterMap_append, List.filterMap_cons_some hon]
    exact ht.pending _ ⟨_, (List.filterMap_append ..).symm⟩
  · rw [Reassembler.log_ofFlow, hget, List.filterMap_append, List.filterMap_cons_some hon]
    exact ht.gathers
  · rw [← hfragments]; rfl
  · rw [← hfragments]; rfl
  · show (m.startFrame).getD p.frame = q.frame
    rw [hu.startFrame, Option.getD_some]

/-- An end without a start, then a start that is sent twice, a packet of the answer and a message in
one frame. -/
def muddle (flow : Flow) : List Action :=
  [.ingest flow ⟨.ofFlags .one flow.endpoints 0x5b, [0x09], 0⟩,
    .ingest flow ⟨.ofFlags .one flow.endpoints 0xbb, [0x01], 1⟩,
    .ingest flow ⟨.ofFlags .one flow.endpoints 0xbb, [0x01], 2⟩,
    .ingest flow.reply ⟨.ofFlags .one flow.reply.endpoints 0x83, [0x07], 3⟩,
    .ingest flow ⟨.ofFlags .one flow.endpoints 0xcb, [0x08], 4⟩]

theorem muddle_completed :
    (((∅ : Reassembler).run (muddle ⟨⟨8, 16⟩, ⟨true, 3⟩⟩)).ingest ⟨⟨8, 16⟩, ⟨true, 3⟩⟩
        ⟨.ofFlags .one ⟨8, 16⟩ 0x4b, [0x02], 5⟩).1.outcome =
      .completed ⟨⟨⟨8, 16⟩, ⟨true, 3⟩⟩, [0x01, 0x02], 1, 5, [1, 5], false⟩ ∧
    (((∅ : Reassembler).run (muddle ⟨⟨8, 16⟩, ⟨true, 3⟩⟩)).ingest ⟨⟨8, 16⟩, ⟨true, 3⟩⟩
        ⟨.ofFlags .one ⟨8, 16⟩ 0x4b, [0x02], 5⟩).1.anomalies = [] := by
  have h : (((∅ : Reassembler).run (muddle ⟨⟨8, 16⟩, ⟨true, 3⟩⟩)).ingest ⟨⟨8, 16⟩, ⟨true, 3⟩⟩
      ⟨.ofFlags .one ⟨8, 16⟩ 0x4b, [0x02], 5⟩).1.outcome =
        .completed ⟨⟨⟨8, 16⟩, ⟨true, 3⟩⟩, [0x01, 0x02], 1, 5, [1, 5], false⟩ := by
    rw [Reassembler.fst_ingest, Reassembler.get?_run, Reassembler.get?_emptyCollection]
    decide
  obtain ⟨_, _, _, _, _, -, -, -, -, -, -, -, -, -, -, -, -, hanomalies, -⟩ :=
    completed_from_fragments _ _ _ _ h
  exact ⟨h, hanomalies⟩

end MctpReceiver
