import MctpReceiver.Proofs.Runs

/-!
# Isolation of flows

No flow has any influence on another. `flows_isolated`: what the packets of a flow lead to, and the
partial message it ends with, are the same if all packets and removals on other flows are left out;
and runs in which every flow has the same actions in the same order agree on every answer and end in
the same reassembler, however the flows are interleaved.
-/

namespace MctpReceiver

namespace Action

/-- Leaving out what does not concern a flow takes nothing from it. -/
theorem filterMap_on_filter_concerns (flow : Flow) (as : List Action) :
    (as.filter (·.concerns flow)).filterMap (·.on flow) = as.filterMap (·.on flow) := by
  induction as with
  | nil => rfl
  | cons a as ih =>
    cases h : a.concerns flow with
    | true => rw [List.filter_cons_of_pos (by simpa using h), List.filterMap_cons, ih,
        List.filterMap_cons]
    | false =>
      have hon : a.on flow = none := by simpa [h] using isSome_on flow a
      rw [List.filter_cons_of_neg (by simp [h]), ih, List.filterMap_cons_none hon]

/-- To no flow does it matter which of two packets on different flows is first. -/
theorem filterMap_on_comm {flow other : Flow} (h : flow ≠ other) (f g : Fragment) (of : Flow) :
    [ingest flow f, ingest other g].filterMap (·.on of) =
      [ingest other g, ingest flow f].filterMap (·.on of) := by
  by_cases hof : flow = of
  · subst hof
    simp [on, h.symm]
  · simp [on, List.filterMap_cons, hof]

end Action

namespace Reassembler

/-- Every packet in the log of what concerns a flow is on that flow. -/
theorem flow_of_mem_log_filter {flow : Flow} {t : Reassembler} {as : List Action} {e : Entry}
    (he : e ∈ t.log (as.filter (·.concerns flow))) : e.flow = flow := by
  induction as generalizing t with
  | nil => simp [log] at he
  | cons a as ih =>
    by_cases h : a.concerns flow
    · rw [List.filter_cons_of_pos (by simpa using h), log, List.mem_append] at he
      rcases he with he | he
      · cases a with
        | ingest other f =>
          have hother : other = flow := of_decide_eq_true h
          simp only [logged?, Option.toList_some, List.mem_singleton] at he
          rw [he, hother]
        | remove other => simp [logged?] at he
        | filter keep => simp [logged?] at he
        | clear => simp [logged?] at he
      · exact ih he
    · rw [List.filter_cons_of_neg (by simpa using h)] at he
      exact ih he

/-- **Isolation.** A flow is answered, and ends, as if it were alone, and so the order in which the
actions of different flows follow each other has no effect on any answer or on the end. -/
theorem flows_isolated (t : Reassembler) :
    (∀ (as : List Action) (flow : Flow),
      t.log (as.filter (·.concerns flow)) = (t.log as).filter (·.flow = flow) ∧
      (t.run (as.filter (·.concerns flow))).get? flow = (t.run as).get? flow) ∧
    (∀ as bs : List Action,
      (∀ flow : Flow, as.filterMap (·.on flow) = bs.filterMap (·.on flow)) →
      (∀ flow : Flow, (t.log as).filter (·.flow = flow) = (t.log bs).filter (·.flow = flow)) ∧
      t.run as = t.run bs) := by
  constructor
  · intro as flow
    have hall : t.log (as.filter (·.concerns flow)) =
        (t.log (as.filter (·.concerns flow))).filter (·.flow = flow) := by
      refine (List.filter_eq_self.2 fun e he => ?_).symm
      exact decide_eq_true (flow_of_mem_log_filter he)
    refine ⟨?_, ?_⟩
    · rw [hall, log_ofFlow, log_ofFlow, Action.filterMap_on_filter_concerns]
    · rw [get?_run, get?_run, Action.filterMap_on_filter_concerns]
  · intro as bs hsame
    refine ⟨fun flow => ?_, ext_get? fun flow => ?_⟩
    · rw [log_ofFlow, log_ofFlow, hsame flow]
    · rw [get?_run, get?_run, hsame flow]

theorem crossing_packets_isolated :
    (∅ : Reassembler).run
        [.ingest ⟨⟨8, 16⟩, ⟨true, 3⟩⟩ ⟨.ofFlags .one ⟨8, 16⟩ 0x8b, [0x01], 0⟩,
          .ingest ⟨⟨16, 8⟩, ⟨false, 3⟩⟩ ⟨.ofFlags .one ⟨16, 8⟩ 0x83, [0x02], 1⟩] =
      (∅ : Reassembler).run
        [.ingest ⟨⟨16, 8⟩, ⟨false, 3⟩⟩ ⟨.ofFlags .one ⟨16, 8⟩ 0x83, [0x02], 1⟩,
          .ingest ⟨⟨8, 16⟩, ⟨true, 3⟩⟩ ⟨.ofFlags .one ⟨8, 16⟩ 0x8b, [0x01], 0⟩] := by
  obtain ⟨-, hinterleaved⟩ := flows_isolated ∅
  exact (hinterleaved _ _ (Action.filterMap_on_comm (by decide) _ _)).2

end Reassembler

end MctpReceiver
