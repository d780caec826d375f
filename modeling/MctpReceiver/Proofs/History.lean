import MctpReceiver.Proofs.Conservation

/-!
# What the status of a pending message tells

The history of a pending message is every fragment taken in on its flow from the one that began it to
the end of the run, kept or not. `status_follows_history`: the frame seen last,
the frames listed, the conflict mark and the orphan mark can all be read off the history, and so can
the conflict mark of a completed message. So the owner who keeps what was seen last in a late enough
frame keeps the flows whose latest fragment came in such a frame, kept or not.

`Since` says where the history of a flow begins: at a fragment that found nothing pending or
superseded what was there, with neither happening again since. There is such a place whenever
something is pending (`Reassembler.exists_since`), and from it on every fragment keeps the status true
(`Since.reflects`).
-/

namespace MctpReceiver

/-! ## Histories -/

/-- The packets on a flow in a log, whole messages left out. -/
def fragmentsOn (flow : Flow) (log : List Entry) : List Entry :=
  (log.filter (·.flow = flow)).filter (·.fragment.header.isFragment)

/-- The fragment begins a partial message: nothing is pending, or it is a start of message that does
not repeat the latest fragment. -/
def Fragment.Begins (f : Fragment) (pending : Option PartialMessage) : Prop :=
  ∀ m, pending = some m → f.header.som = true ∧ f.repeats m.latest = false

/-- In a run from the empty reassembler, the fragment `q` began the partial message of a flow. The
flow has had one ever since, and no fragment has begun another. -/
structure Since (flow : Flow) (as before : List Action) (q : Fragment) (after : List Action) :
    Prop where
  run_eq : as = before ++ .ingest flow q :: after
  isFragment : q.header.isFragment = true
  begins : q.Begins (((∅ : Reassembler).run before).get? flow)
  pending : ∀ bs, bs <+: after →
    (((∅ : Reassembler).run (before ++ .ingest flow q :: bs)).get? flow).isSome
  last : ∀ bs f, bs ++ [.ingest flow f] <+: after → f.header.isFragment = true →
    ¬ f.Begins (((∅ : Reassembler).run (before ++ .ingest flow q :: bs)).get? flow)

/-- The fragments on the flow from `q` on, each with what it led to. -/
def history (flow : Flow) (before : List Action) (q : Fragment) (after : List Action) : List Entry :=
  fragmentsOn flow (((∅ : Reassembler).run before).log (.ingest flow q :: after))

/-- A conflict was reported to one of the packets. -/
def ConflictIn (log : List Entry) : Prop :=
  ∃ e ∈ log, Anomaly.overlapConflict ∈ e.result.anomalies

/-- The status of the partial message is what its history says. -/
structure PartialMessage.Reflects (m : PartialMessage) (es : List Entry) : Prop where
  /-- The fragment that arrived last counts, whether it was kept or not. -/
  lastFrame : ∃ e, es.getLast? = some e ∧ e.fragment.header.position ≠ .single ∧
    m.lastFrame = e.fragment.frame
  frames : m.frames = (keptIn es).map (·.frame)
  conflicted : m.conflicted = true ↔ ConflictIn es
  orphan : m.orphan = true ↔ ∃ e, es.head? = some e ∧ e.fragment.header.som = false

section History

variable {flow : Flow} {as before after : List Action} {a : Action} {q f : Fragment}
  {m m' : PartialMessage} {pending next : Option PartialMessage} {i : Ingestion} {es : List Entry}

theorem fragmentsOn_append (flow : Flow) (xs ys : List Entry) :
    fragmentsOn flow (xs ++ ys) = fragmentsOn flow xs ++ fragmentsOn flow ys := by
  simp only [fragmentsOn, List.filter_append]

theorem history_concat (flow : Flow) (before : List Action) (q : Fragment) (after : List Action)
    (a : Action) :
    history flow before q (after ++ [a]) = history flow before q after ++
      fragmentsOn flow (((∅ : Reassembler).run (before ++ .ingest flow q :: after)).log [a]) := by
  unfold history
  rw [← List.cons_append, Reassembler.log_append, fragmentsOn_append, ← Reassembler.run_append]

/-- The history is the end of what the flow has seen. -/
theorem fragmentsOn_log (flow : Flow) (before : List Action) (q : Fragment) (after : List Action) :
    fragmentsOn flow ((∅ : Reassembler).log (before ++ .ingest flow q :: after)) =
      fragmentsOn flow ((∅ : Reassembler).log before) ++ history flow before q after := by
  rw [Reassembler.log_append, fragmentsOn_append, history]

/-! ## One action -/

theorem Action.brings_fragment_or_not (a : Action) (flow : Flow) :
    (∃ f, a = .ingest flow f ∧ f.header.isFragment = true) ∨
      ∀ f, a = .ingest flow f → f.header.isFragment = false := by
  by_cases h : ∃ f, a = .ingest flow f ∧ f.header.isFragment = true
  · exact Or.inl h
  · exact Or.inr fun f hfa => Bool.eq_false_iff.2 fun hf => h ⟨f, hfa, hf⟩

theorem fragmentsOn_log_ingest (t : Reassembler) (hf : f.header.isFragment = true) :
    fragmentsOn flow (t.log [.ingest flow f]) =
      [⟨flow, f, (ingestOne flow (t.get? flow) f).1⟩] := by
  simp [fragmentsOn, Reassembler.log, Reassembler.logged?, Reassembler.fst_ingest, hf]

/-- An action that brings the flow no fragment adds nothing to its history, and leaves what is pending
as it is or discards it. -/
theorem Reassembler.apply_of_no_fragment (t : Reassembler) (flow : Flow)
    (ha : ∀ f, a = .ingest flow f → f.header.isFragment = false) :
    fragmentsOn flow (t.log [a]) = [] ∧
      ∀ m, (t.apply a).get? flow = some m → t.get? flow = some m := by
  cases a with
  | ingest other f =>
    by_cases h : other = flow
    · subst h
      have hf := ha f rfl
      refine ⟨by simp [fragmentsOn, log, logged?, hf], fun m hm => ?_⟩
      rwa [apply, ingest_of_single t other (Header.isFragment_eq_false.1 hf)] at hm
    · refine ⟨by simp [fragmentsOn, log, logged?, h], fun m hm => ?_⟩
      rwa [apply, get?_ingest, if_neg h] at hm
  | remove other =>
    refine ⟨rfl, fun m hm => ?_⟩
    rw [apply, get?_remove] at hm
    split at hm
    · cases hm
    · exact hm
  | filter keep =>
    refine ⟨rfl, fun m hm => ?_⟩
    rw [apply, get?_filter] at hm
    exact (Option.filter_eq_some_iff.1 hm).1
  | clear =>
    refine ⟨rfl, fun m hm => ?_⟩
    rw [apply, get?_emptyCollection] at hm
    cases hm

/-! ## Where a history begins -/

theorem Fragment.begins_none (f : Fragment) : f.Begins none := by
  intro m h
  cases h

theorem since_ingest (hf : f.header.isFragment = true)
    (hb : f.Begins (((∅ : Reassembler).run as).get? flow))
    (hp : (((∅ : Reassembler).run (as ++ [.ingest flow f])).get? flow).isSome) :
    Since flow (as ++ [.ingest flow f]) as f [] where
  run_eq := rfl
  isFragment := hf
  begins := hb
  pending := by
    intro bs hbs
    rwa [List.prefix_nil.1 hbs]
  last := by
    intro bs g hbs
    simp at hbs

/-- A history goes on as long as the flow has a partial message and no fragment begins another. -/
theorem Since.concat (h : Since flow as before q after)
    (hp : (((∅ : Reassembler).run (as ++ [a])).get? flow).isSome)
    (ha : ∀ f, a = .ingest flow f → f.header.isFragment = true →
      ¬ f.Begins (((∅ : Reassembler).run as).get? flow)) :
    Since flow (as ++ [a]) before q (after ++ [a]) where
  run_eq := by rw [h.run_eq, List.append_assoc, List.cons_append]
  isFragment := h.isFragment
  begins := h.begins
  pending := by
    intro bs hbs
    rcases List.prefix_concat_iff.1 hbs with rfl | hbs
    · rwa [h.run_eq, List.append_assoc, List.cons_append] at hp
    · exact h.pending bs hbs
  last := by
    intro bs f hbs hf
    rcases List.prefix_concat_iff.1 hbs with heq | hbs
    · obtain ⟨rfl, hfa⟩ := List.append_inj' heq rfl
      rw [← h.run_eq]
      exact ha f (List.cons.inj hfa).1.symm hf
    · exact h.last bs f hbs hf

/-- Without its last action the history is one of the shorter run. -/
theorem Since.of_concat (h : Since flow as before q (after ++ [a])) :
    Since flow (before ++ .ingest flow q :: after) before q after where
  run_eq := rfl
  isFragment := h.isFragment
  begins := h.begins
  pending := fun bs hbs => h.pending bs (hbs.trans (List.prefix_append after [a]))
  last := fun bs f hbs => h.last bs f (hbs.trans (List.prefix_append after [a]))

/-- What is pending has a history. -/
theorem Reassembler.exists_since (h : ((∅ : Reassembler).run as).get? flow = some m) :
    ∃ before q after, Since flow as before q after := by
  induction as using List.reverseRecOn generalizing m with
  | nil => cases h
  | append_singleton as a ih =>
    have hp : (((∅ : Reassembler).run (as ++ [a])).get? flow).isSome := by rw [h]; rfl
    by_cases hb : ∃ f, a = .ingest flow f ∧ f.header.isFragment = true ∧
        f.Begins (((∅ : Reassembler).run as).get? flow)
    · obtain ⟨f, rfl, hf, hb⟩ := hb
      exact ⟨as, f, [], since_ingest hf hb hp⟩
    · have ha : ∀ f, a = .ingest flow f → f.header.isFragment = true →
          ¬ f.Begins (((∅ : Reassembler).run as).get? flow) :=
        fun f hfa hf hbegins => hb ⟨f, hfa, hf, hbegins⟩
      -- What begins nothing found something pending.
      have hprev : ∃ m', ((∅ : Reassembler).run as).get? flow = some m' := by
        rcases a.brings_fragment_or_not flow with ⟨f, hfa, hf⟩ | hnone
        · refine Option.ne_none_iff_exists'.1 fun hempty => ha f hfa hf ?_
          rw [hempty]
          exact f.begins_none
        · rw [run_concat] at h
          exact ⟨m, (apply_of_no_fragment _ flow hnone).2 m h⟩
      obtain ⟨m', hm'⟩ := hprev
      obtain ⟨before, q, after, hs⟩ := ih hm'
      exact ⟨before, q, after ++ [a], hs.concat hp ha⟩

/-! ## The status along a history -/

theorem conflictIn_append {xs ys : List Entry} :
    ConflictIn (xs ++ ys) ↔ ConflictIn xs ∨ ConflictIn ys := by
  simp only [ConflictIn, List.mem_append, or_and_right, exists_or]

theorem conflictIn_singleton {e : Entry} :
    ConflictIn [e] ↔ Anomaly.overlapConflict ∈ e.result.anomalies := by
  simp [ConflictIn]

/-- A conflict is reported only to what is dropped. -/
theorem not_conflictIn_of_kept (h : ∀ a ∈ i.anomalies, a.isDrop = false) :
    ¬ ConflictIn [⟨flow, f, i⟩] := by
  rw [conflictIn_singleton]
  intro hmem
  cases h _ hmem

namespace PartialMessage

theorem reflects_start (hf : f.header.position ≠ .single)
    (ha : ∀ a ∈ i.anomalies, a.isDrop = false) : (start f).Reflects [⟨flow, f, i⟩] where
  lastFrame := ⟨_, rfl, hf, rfl⟩
  frames := by
    rw [keptIn_of_kept (Entry.kept_of_forall hf ha)]
    rfl
  conflicted := iff_of_false Bool.false_ne_true (not_conflictIn_of_kept ha)
  orphan := by simp [start]

/-- What is known of one more packet is added to what is known of those before it. -/
theorem Reflects.concat {e : Entry} (h : m.Reflects es) (he : e.fragment.header.position ≠ .single)
    (hlast : m'.lastFrame = e.fragment.frame)
    (hframes : m'.frames = m.frames ++ (keptIn [e]).map (·.frame))
    (hconflicted : m'.conflicted = true ↔ m.conflicted = true ∨ ConflictIn [e])
    (horphan : m'.orphan = m.orphan) : m'.Reflects (es ++ [e]) where
  lastFrame := ⟨e, List.getLast?_concat, he, hlast⟩
  frames := by rw [hframes, h.frames, keptIn_append, List.map_append]
  conflicted := by rw [hconflicted, h.conflicted, conflictIn_append]
  orphan := by
    obtain ⟨_, hlast, -⟩ := h.lastFrame
    have hne : es ≠ [] := fun hnil => by simp [hnil] at hlast
    rw [horphan, h.orphan, List.head?_append_of_ne_nil es hne]

/-- A dropped fragment leaves its frame behind, and a mark if it conflicts. -/
theorem Reflects.drop (h : m.Reflects es) (hf : f.header.position ≠ .single)
    (hk : (Entry.mk flow f i).kept = false) {conflicted : Bool}
    (hc : conflicted = true ↔ m.conflicted = true ∨ ConflictIn [⟨flow, f, i⟩]) :
    Reflects { m with lastFrame := f.frame, conflicted := conflicted } (es ++ [⟨flow, f, i⟩]) := by
  refine h.concat hf rfl ?_ hc rfl
  rw [keptIn_of_not_kept hk]
  exact (List.append_nil _).symm

theorem Reflects.append (h : m.Reflects es) (hf : f.header.position ≠ .single)
    (ha : ∀ a ∈ i.anomalies, a.isDrop = false) :
    (m.append f).Reflects (es ++ [⟨flow, f, i⟩]) := by
  have hkept : keptIn [⟨flow, f, i⟩] = [f] := keptIn_of_kept (Entry.kept_of_forall hf ha)
  refine h.concat hf rfl ?_ ?_ rfl
  · rw [hkept, PartialMessage.frames, fragments_append, List.map_append]
    rfl
  · rw [or_iff_left (not_conflictIn_of_kept ha)]
    rfl

end PartialMessage

/-- A fragment that begins a partial message leaves it alone there, and is not reported as dropped. -/
theorem Step.of_begins (hstep : Step flow f pending i next) (hf : f.header.position ≠ .single)
    (hb : f.Begins pending) :
    next = some (.start f) ∧ ∀ a ∈ i.anomalies, a.isDrop = false := by
  cases hstep with
  | single h => exact absurd h hf
  | opened | orphaned | orphanedEnd | restarted => exact ⟨rfl, by simp [Anomaly.isDrop]⟩
  | repeated _ hr | conflicting _ hr =>
    have hnot := (hb _ rfl).2
    rw [hr] at hnot
    cases hnot
  | beyond hp | continued hp =>
    have hsom := (hb _ rfl).1
    rw [(Header.position_eq_middle.1 hp).1] at hsom
    cases hsom
  | completed hp | failed hp =>
    have hsom := (hb _ rfl).1
    rw [(Header.position_eq_last.1 hp).1] at hsom
    cases hsom

/-- A fragment that begins nothing keeps the status true. -/
theorem Step.reflects (hstep : Step flow f (some m) i (some m')) (hf : f.header.position ≠ .single)
    (hb : ¬ f.Begins (some m)) (h : m.Reflects es) : m'.Reflects (es ++ [⟨flow, f, i⟩]) := by
  cases hstep with
  | single hp => exact absurd hp hf
  | repeated | conflicting =>
    refine h.drop hf ?_ ?_
    · simp [Entry.kept, Anomaly.isDrop]
    · simp [conflictIn_singleton]
  | restarted hp hr =>
    refine absurd ?_ hb
    rintro _ ⟨⟩
    exact ⟨(Header.position_eq_first.1 hp).1, hr⟩
  | beyond =>
    refine h.drop hf ?_ ?_
    · simp [Entry.kept, Anomaly.isDrop]
    · simp [conflictIn_singleton]
  | continued => exact h.append hf (by simp)
  | failed => exact h.append hf (by cases m.hasTail <;> simp [Anomaly.isDrop])

/-- From the fragment that began it on, the status of a pending message is what its history says. -/
theorem Since.reflects (h : Since flow as before q after)
    (hm : ((∅ : Reassembler).run as).get? flow = some m) :
    m.Reflects (history flow before q after) := by
  induction after using List.reverseRecOn generalizing as m with
  | nil =>
    have hq : q.header.position ≠ .single := (Header.isFragment_iff _).1 h.isFragment
    have hstep := step_ingestOne flow q (((∅ : Reassembler).run before).get? flow)
    rw [h.run_eq, Reassembler.run_concat, Reassembler.apply, Reassembler.get?_ingest,
      if_pos rfl] at hm
    obtain ⟨hnext, ha⟩ := hstep.of_begins hq h.begins
    obtain rfl : PartialMessage.start q = m := Option.some.inj (hnext.symm.trans hm)
    rw [history, fragmentsOn_log_ingest _ h.isFragment]
    exact PartialMessage.reflects_start hq ha
  | append_singleton after a ih =>
    obtain ⟨m', hm'⟩ := Option.isSome_iff_exists.1 (h.pending after (List.prefix_append after [a]))
    have hprev := ih h.of_concat hm'
    rw [h.run_eq, ← List.cons_append, ← List.append_assoc, Reassembler.run_concat] at hm
    rw [history_concat]
    rcases a.brings_fragment_or_not flow with ⟨f, rfl, hf⟩ | ha
    · have hb := h.last after f List.prefix_rfl hf
      have hstep := step_ingestOne flow f
        (((∅ : Reassembler).run (before ++ .ingest flow q :: after)).get? flow)
      rw [Reassembler.apply, Reassembler.get?_ingest, if_pos rfl] at hm
      rw [fragmentsOn_log_ingest _ hf]
      rw [hm] at hstep
      rw [hm'] at hstep hb ⊢
      exact hstep.reflects ((Header.isFragment_iff _).1 hf) hb hprev
    · obtain ⟨hnone, hkeep⟩ := Reassembler.apply_of_no_fragment
        ((∅ : Reassembler).run (before ++ .ingest flow q :: after)) flow ha
      obtain rfl : m' = m := Option.some.inj (hm'.symm.trans (hkeep m hm))
      rwa [hnone, List.append_nil]

/-! ## What follows from the status -/

/-- What was seen last is the last fragment that the run brought the flow. -/
theorem Reassembler.exists_getLast?_fragmentsOn
    (hm : ((∅ : Reassembler).run as).get? flow = some m) :
    ∃ e, (fragmentsOn flow ((∅ : Reassembler).log as)).getLast? = some e ∧
      m.lastFrame = e.fragment.frame := by
  obtain ⟨before, q, after, h⟩ := exists_since hm
  obtain ⟨e, hlast, -, hframe⟩ := (h.reflects hm).lastFrame
  refine ⟨e, ?_, hframe⟩
  rw [h.run_eq, fragmentsOn_log, List.getLast?_append, hlast, Option.some_or]

/-- A completed message takes over the mark of what was pending, and the packet that completes it is
not reported to conflict. -/
theorem Step.conflicted_of_completed {message : Message} (hstep : Step flow f pending i next)
    (h : i.outcome = .completed message) :
    ∃ m, pending = some m ∧ message.conflicted = m.conflicted ∧ f.header.position ≠ .single ∧
      ¬ ConflictIn [⟨flow, f, i⟩] := by
  cases hstep with
  | @completed m hp hr hc =>
    obtain rfl := Outcome.completed.inj h
    refine ⟨m, rfl, rfl, by simp [hp], not_conflictIn_of_kept ?_⟩
    cases m.hasTail <;> simp [Anomaly.isDrop]
  | single | opened | orphaned | orphanedEnd | repeated | conflicting | restarted | beyond
  | continued | failed => cases h

end History

/-- **The status of a message.** After any run from the empty reassembler, what is pending has a
history, and its status is what the history says. The conflict mark of a message that is completed is
that of its history, too. And who keeps what was seen last in the frame `c` or a later one keeps the
flows whose last fragment came in such a frame. -/
theorem status_follows_history (as : List Action) (flow : Flow) :
    (∀ m, ((∅ : Reassembler).run as).get? flow = some m →
      (∃ before q after, Since flow as before q after) ∧
      ∀ before q after, Since flow as before q after → m.Reflects (history flow before q after)) ∧
    (∀ p message, (((∅ : Reassembler).run as).ingest flow p).1.outcome = .completed message →
      (∃ before q after, Since flow as before q after) ∧
      ∀ before q after, Since flow as before q after →
        (message.conflicted = true ↔
          ConflictIn (history flow before q (after ++ [.ingest flow p])))) ∧
    (∀ (c : FrameId) (m : PartialMessage),
      (((∅ : Reassembler).run as).filter fun _ m => c ≤ m.lastFrame).get? flow = some m ↔
        ((∅ : Reassembler).run as).get? flow = some m ∧
          ∃ e, (fragmentsOn flow ((∅ : Reassembler).log as)).getLast? = some e ∧
            c ≤ e.fragment.frame) := by
  refine ⟨fun m hm => ⟨Reassembler.exists_since hm, fun before q after h => h.reflects hm⟩, ?_, ?_⟩
  · intro p message hp
    rw [Reassembler.fst_ingest] at hp
    obtain ⟨m, hm, hmark, hsingle, hnot⟩ := (step_ingestOne flow p _).conflicted_of_completed hp
    refine ⟨Reassembler.exists_since hm, fun before q after h => ?_⟩
    rw [history_concat, ← h.run_eq, fragmentsOn_log_ingest _ ((Header.isFragment_iff _).2 hsingle),
      conflictIn_append, or_iff_left hnot, hmark]
    exact (h.reflects hm).conflicted
  · intro c m
    rw [Reassembler.get?_filter, Option.filter_eq_some_iff]
    refine and_congr_right fun hm => ?_
    obtain ⟨e, hlast, hframe⟩ := Reassembler.exists_getLast?_fragmentsOn hm
    simp only [decide_eq_true_eq, hframe, hlast, Option.some.injEq, exists_eq_left']

/-- A start that another one supersedes, a fragment behind it that is sent again with another byte, and
a message in one frame. -/
def overlapped (flow : Flow) : List Action :=
  [.ingest flow ⟨.ofFlags .one flow.endpoints 0x8b, [0x01], 5⟩,
    .ingest flow ⟨.ofFlags .one flow.endpoints 0x9b, [0x02], 6⟩,
    .ingest flow ⟨.ofFlags .one flow.endpoints 0x2b, [0x03], 7⟩,
    .ingest flow ⟨.ofFlags .one flow.endpoints 0x2b, [0x04], 8⟩,
    .ingest flow ⟨.ofFlags .one flow.endpoints 0xcb, [0x05], 9⟩]

/-- The conflict is told of what is pending and of the message that an end completes. What is kept for
the frame seen last is kept for the fragment that was sent again, and not for the message behind it. -/
theorem overlapped_status :
    (∃ before q after,
      Since ⟨⟨8, 16⟩, ⟨true, 3⟩⟩ (overlapped ⟨⟨8, 16⟩, ⟨true, 3⟩⟩) before q after ∧
        ConflictIn (history ⟨⟨8, 16⟩, ⟨true, 3⟩⟩ before q after) ∧
        ConflictIn (history ⟨⟨8, 16⟩, ⟨true, 3⟩⟩ before q
          (after ++ [.ingest ⟨⟨8, 16⟩, ⟨true, 3⟩⟩ ⟨.ofFlags .one ⟨8, 16⟩ 0x7b, [0x06], 10⟩]))) ∧
      ∃ e, (fragmentsOn ⟨⟨8, 16⟩, ⟨true, 3⟩⟩
        ((∅ : Reassembler).log (overlapped ⟨⟨8, 16⟩, ⟨true, 3⟩⟩))).getLast? = some e ∧
          8 ≤ e.fragment.frame := by
  obtain ⟨hpending, hcompleted, hkept⟩ :=
    status_follows_history (overlapped ⟨⟨8, 16⟩, ⟨true, 3⟩⟩) ⟨⟨8, 16⟩, ⟨true, 3⟩⟩
  have hm : ((∅ : Reassembler).run (overlapped ⟨⟨8, 16⟩, ⟨true, 3⟩⟩)).get?
      ⟨⟨8, 16⟩, ⟨true, 3⟩⟩ =
        some
          { latest := ⟨.ofFlags .one ⟨8, 16⟩ 0x2b, [0x03], 7⟩
            earlier := [⟨.ofFlags .one ⟨8, 16⟩ 0x9b, [0x02], 6⟩]
            missing := 0, hasTail := false, startFrame := some 6, lastFrame := 8, orphan := false
            conflicted := true } := by
    rw [Reassembler.get?_run_empty]
    decide
  have hp : (((∅ : Reassembler).run (overlapped ⟨⟨8, 16⟩, ⟨true, 3⟩⟩)).ingest
      ⟨⟨8, 16⟩, ⟨true, 3⟩⟩ ⟨.ofFlags .one ⟨8, 16⟩ 0x7b, [0x06], 10⟩).1.outcome =
        .completed ⟨⟨⟨8, 16⟩, ⟨true, 3⟩⟩, [0x02, 0x03, 0x06], 6, 10, [6, 7, 10], true⟩ := by
    rw [Reassembler.fst_ingest, hm]
    decide
  obtain ⟨⟨before, q, after, h⟩, hreflects⟩ := hpending _ hm
  have hfilter := (Reassembler.get?_filter _ (fun _ m => 8 ≤ m.lastFrame) _).trans
    (Option.filter_eq_some_iff.2 ⟨hm, rfl⟩)
  exact ⟨⟨before, q, after, h, (hreflects before q after h).conflicted.1 rfl,
    ((hcompleted _ _ hp).2 before q after h).1 rfl⟩, ((hkept 8 _).1 hfilter).2⟩

end MctpReceiver
