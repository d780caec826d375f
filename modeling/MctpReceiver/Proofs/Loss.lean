import MctpReceiver.Proofs.Lossless
import Mathlib.Data.List.FinRange
import Mathlib.Data.List.Sort

/-!
# Lost frames

Of the frames of a transmission some are lost, never more than two in a row between others that
arrive. `losses_detected` says what the rest leads to on a flow that has no partial message: the
message is completed just if nothing is lost; if its first and last frame arrive, the last one tells
how many are missing; and if the first one does not arrive, the first that does is reported.

Two sequence numbers tell how many frames lie between them as long as there are no more than two
(`distanceTo_sequence`). `Heard s first last n m` is what holds after `n` frames of `s`, from frame
`first` to frame `last`: the partial message `m` has counted what was lost between them.
-/

namespace MctpReceiver

/-! ## What is reported -/

/-- The answers to `n` fragments that are all kept: `first` is reported with the first of them, `last`
with the last, and nothing in between. -/
def reports : ℕ → List Anomaly → List Anomaly → List Ingestion
  | 0, _, _ => []
  | 1, first, last => [⟨.buffered, first ++ last⟩]
  | n + 2, first, last =>
    ⟨.buffered, first⟩ :: (List.replicate n ⟨.buffered, []⟩ ++ [⟨.buffered, last⟩])

theorem outcome_of_mem_reports {n : ℕ} {first last : List Anomaly} {i : Ingestion}
    (h : i ∈ reports n first last) : i.outcome = .buffered := by
  unfold reports at h
  split at h
  · cases h
  · rw [List.mem_singleton.1 h]
  · simp only [List.mem_cons, List.mem_append, List.mem_replicate, List.not_mem_nil, or_false] at h
    rcases h with rfl | ⟨-, rfl⟩ | rfl <;> rfl

theorem reports_succ_nil (n : ℕ) (first : List Anomaly) :
    reports (n + 1) first [] = ⟨.buffered, first⟩ :: List.replicate n ⟨.buffered, []⟩ := by
  cases n with
  | zero =>
    show [(⟨.buffered, first ++ []⟩ : Ingestion)] = _
    rw [List.append_nil]
    rfl
  | succ n => rw [reports, List.replicate_succ']

/-! ## Frames that arrive -/

/-- One frame arrives after another, with at most two lost in between. -/
def Near (i j : ℕ) : Prop := i < j ∧ j ≤ i + 3

theorem lt_of_isChain_near {ks : List ℕ} {j l : ℕ} (h : (ks ++ [l]).IsChain Near) (hj : j ∈ ks) :
    j < l := by
  have hlt : (ks ++ [l]).Pairwise (· < ·) := (h.imp fun _ _ hnear => hnear.1).pairwise
  exact (List.pairwise_append.1 hlt).2.2 j hj l List.mem_cons_self

namespace Transmission

variable (s : Transmission)

/-- Up to three steps can be told from two sequence numbers. -/
theorem distanceTo_sequence {i j : ℕ} (h : Near i j) :
    (s.sequence i).distanceTo (s.sequence j) = j - i := by
  obtain ⟨hlt, hle⟩ := h
  simp only [Sequence.distanceTo, sequence, BitVec.toNat_sub, BitVec.toNat_ofNat]
  omega

end Transmission

/-! ## A message with gaps -/

/-- After `n` frames of a transmission, from frame `first` to frame `last`, all that is known of them
is in the partial message. -/
structure Heard (s : Transmission) (first last n : ℕ) (m : PartialMessage) : Prop where
  latest : m.latest.header = s.header last
  startFrame : m.startFrame = none ↔ first ≠ 0
  missing : m.missing + n + first = last + 1
  hasTail : m.hasTail = false

namespace Heard

variable {s : Transmission} {first last n j : ℕ} {m : PartialMessage}

/-- What the next frame finds: it is no repetition, and the gap before it is known. -/
theorem next_frame (h : Heard s first last n m) (hj : Near last j) (id : FrameId) :
    (s.fragment j id).repeats m.latest = false ∧
      (m.append (s.fragment j id)).missing + (n + 1) + first = j + 1 := by
  have hdist := s.distanceTo_sequence hj
  have hseq : m.latest.header.sequence = s.sequence last := by rw [h.latest]; rfl
  have hmissing := h.missing
  obtain ⟨hlt, -⟩ := hj
  constructor
  · refine Bool.eq_false_iff.2 fun hr => ?_
    have heq : s.sequence j = m.latest.header.sequence := (Fragment.repeats_iff.1 hr).1
    rw [hseq] at heq
    rw [Sequence.distanceTo_eq_zero.2 heq.symm] at hdist
    omega
  · have hlost : m.latest.lostBefore (s.fragment j id) = j - last - 1 := by
      unfold Fragment.lostBefore
      rw [hseq]
      exact congrArg (· - 1) hdist
    show m.missing + m.latest.lostBefore (s.fragment j id) + (n + 1) + first = j + 1
    omega

/-- The first frame that arrives, if it is not the last of the message. -/
theorem begin {k : ℕ} (hk : k + 1 < s.count) (id : FrameId) :
    Step s.flow (s.fragment k id) none ⟨.buffered, if k = 0 then [] else [.orphanFragment]⟩
        (some (.start (s.fragment k id))) ∧
      Heard s k k 1 (.start (s.fragment k id)) := by
  have heom : (s.header k).eom = false := by
    simp only [Transmission.header, beq_eq_false_iff_ne]
    omega
  constructor
  · by_cases h0 : k = 0
    · subst h0
      exact .opened (s.position_header_first (by omega))
    · rw [if_neg h0]
      exact .orphaned (s.position_header_middle (by omega) hk)
  · refine ⟨rfl, ?_, ?_, heom⟩
    · simp [PartialMessage.start, Transmission.fragment, Transmission.header]
    · show 0 + 1 + k = k + 1
      omega

/-- A frame that is not the last of the message is kept. -/
theorem next (h : Heard s first last n m) (hj : Near last j) (hlt : j + 1 < s.count)
    (id : FrameId) :
    Step s.flow (s.fragment j id) (some m) ⟨.buffered, []⟩
        (some (m.append (s.fragment j id))) ∧
      Heard s first j (n + 1) (m.append (s.fragment j id)) := by
  obtain ⟨hr, hmissing⟩ := h.next_frame hj id
  have hpos : (s.header j).position = .middle :=
    s.position_header_middle (Nat.lt_of_le_of_lt (Nat.zero_le _) hj.1) hlt
  refine ⟨.continued hpos hr h.hasTail, rfl, h.startFrame, hmissing, ?_⟩
  show (m.hasTail || (s.header j).eom) = false
  rw [h.hasTail, (Header.position_eq_middle.1 hpos).2]
  rfl

/-- With the last frame of the message, it is complete if its first frame was there and none is
missing. -/
theorem completion_append (h : Heard s first last n m) (hj : Near last j) (hend : j + 1 = s.count)
    (id : FrameId) :
    (m.append (s.fragment j id)).completion =
      if first = 0 then
        if n + 1 = s.count then .ready else .incomplete (some (s.count - (n + 1)))
      else .incomplete none := by
  obtain ⟨-, hmissing⟩ := h.next_frame hj id
  have htail : (m.append (s.fragment j id)).hasTail = true := by
    simp [PartialMessage.hasTail_append, Transmission.fragment, Transmission.header, hend]
  have hstart : (m.append (s.fragment j id)).startFrame = none ↔ first ≠ 0 := h.startFrame
  unfold PartialMessage.completion
  rw [htail]
  by_cases h0 : first = 0
  · have hsome : (m.append (s.fragment j id)).startFrame.isNone = false :=
      Option.isNone_eq_false_iff.2 (Option.isSome_iff_ne_none.2 fun hnone => hstart.1 hnone h0)
    rw [hsome, if_pos h0]
    by_cases hall : n + 1 = s.count
    · rw [if_pos hall]
      have hzero : (m.append (s.fragment j id)).missing = 0 := by omega
      simp [hzero]
    · rw [if_neg hall]
      have hcount : (m.append (s.fragment j id)).missing = s.count - (n + 1) := by omega
      have hpos : s.count - (n + 1) > 0 := by omega
      simp only [hcount]
      simp [hpos]
  · simp [hstart.2 h0, h0]

/-- The last frame of the message ends it: complete if the first frame was there and none is missing,
and else with the reason why not. -/
theorem finish (h : Heard s first last n m) (hj : Near last j) (hend : j + 1 = s.count)
    (id : FrameId) :
    (first = 0 → n + 1 = s.count → ∃ message next,
      Step s.flow (s.fragment j id) (some m) ⟨.completed message, []⟩ next) ∧
    (first = 0 → n + 1 ≠ s.count → ∃ next, Step s.flow (s.fragment j id) (some m)
      ⟨.buffered, [.desegmentationError (some (s.count - (n + 1)))]⟩ next) ∧
    (first ≠ 0 → ∃ next, Step s.flow (s.fragment j id) (some m)
      ⟨.buffered, [.desegmentationError none]⟩ next) := by
  obtain ⟨hr, -⟩ := h.next_frame hj id
  have hpos : (s.header j).position = .last :=
    s.position_header_last (Nat.lt_of_le_of_lt (Nat.zero_le _) hj.1) hend
  have hcompletion := h.completion_append hj hend id
  have htail : (if m.hasTail then [Anomaly.multipleTails] else []) = [] := by
    rw [h.hasTail, if_neg Bool.false_ne_true]
  refine ⟨fun h0 hall => ?_, fun h0 hall => ?_, fun h0 => ?_⟩
  · rw [if_pos h0, if_pos hall] at hcompletion
    have hstep : Step s.flow _ _ _ none := .completed hpos hr hcompletion
    rw [htail] at hstep
    exact ⟨_, _, hstep⟩
  · rw [if_pos h0, if_neg hall] at hcompletion
    have hstep : Step s.flow _ _ _ (some _) := .failed hpos hr hcompletion
    rw [htail] at hstep
    exact ⟨_, hstep⟩
  · rw [if_neg h0] at hcompletion
    have hstep : Step s.flow _ _ _ (some _) := .failed hpos hr hcompletion
    rw [htail] at hstep
    exact ⟨_, hstep⟩

/-- Frames before the last of the message are kept one by one, and nothing is reported. -/
theorem run (h : Heard s first last n m) {ks : List ℕ} (hks : (last :: ks).IsChain Near)
    (hlt : ∀ k ∈ ks, k + 1 < s.count) (ids : ℕ → FrameId) :
    (∃ m', FlowAction.run s.flow (some m) ((s.heard ks ids).map .ingest) = some m' ∧
      Heard s first (ks.getLastD last) (n + ks.length) m') ∧
    (FlowAction.log s.flow (some m) ((s.heard ks ids).map .ingest)).map (·.result) =
      List.replicate ks.length ⟨.buffered, []⟩ := by
  induction ks generalizing last n m ids with
  | nil => exact ⟨⟨m, rfl, h⟩, rfl⟩
  | cons k ks ih =>
    obtain ⟨hnear, hks⟩ := List.isChain_cons_cons.1 hks
    obtain ⟨hstep, hnext⟩ := h.next hnear (hlt k List.mem_cons_self) (ids 0)
    obtain ⟨⟨m', hrun, hheard⟩, hlog⟩ :=
      ih hnext hks (fun j hj => hlt j (List.mem_cons_of_mem k hj)) fun j => ids (j + 1)
    rw [s.heard_cons, List.map_cons, FlowAction.run_cons, FlowAction.log, FlowAction.apply,
      FlowAction.logged?, hstep.ingestOne_eq]
    refine ⟨⟨m', hrun, ?_⟩, ?_⟩
    · rw [List.getLastD_cons, List.length_cons, Nat.add_comm ks.length, ← Nat.add_assoc]
      exact hheard
    · rw [List.map_append, hlog]
      rfl

end Heard

/-! ## All that arrives -/

namespace Transmission

variable (s : Transmission) {k l : ℕ} {ks : List ℕ}

/-- What the frames with the numbers `ks` lead to on a flow with no partial message. -/
def results (ks : List ℕ) (ids : ℕ → FrameId) : List Ingestion :=
  (FlowAction.log s.flow none ((s.heard ks ids).map .ingest)).map (·.result)

/-- As long as the last frame of the message has not arrived, nothing is reported but that the first
one has not arrived either. -/
theorem run_heard (hks : (k :: ks).IsChain Near) (hlt : ∀ j ∈ k :: ks, j + 1 < s.count)
    (ids : ℕ → FrameId) :
    (∃ m, FlowAction.run s.flow none ((s.heard (k :: ks) ids).map .ingest) = some m ∧
      Heard s k (ks.getLastD k) (ks.length + 1) m) ∧
    s.results (k :: ks) ids =
      reports (ks.length + 1) (if k = 0 then [] else [.orphanFragment]) [] := by
  obtain ⟨hstep, hbegun⟩ := Heard.begin (hlt k List.mem_cons_self) (ids 0)
  obtain ⟨⟨m, hrun, hheard⟩, hlog⟩ :=
    hbegun.run hks (fun j hj => hlt j (List.mem_cons_of_mem k hj)) fun j => ids (j + 1)
  rw [results, s.heard_cons, List.map_cons, FlowAction.run_cons, FlowAction.log, FlowAction.apply,
    FlowAction.logged?, hstep.ingestOne_eq]
  refine ⟨⟨m, hrun, ?_⟩, ?_⟩
  · rw [Nat.add_comm]
    exact hheard
  · rw [List.map_append, hlog, reports_succ_nil]
    rfl

/-- The last frame of the message arrives behind others. -/
theorem results_concat (hks : (k :: ks ++ [l]).IsChain Near) (hend : l + 1 = s.count)
    (ids : ℕ → FrameId) :
    (k = 0 → ks.length + 2 = s.count →
      ∃ r ∈ s.results (k :: ks ++ [l]) ids, ∃ message, r.outcome = .completed message) ∧
    (k = 0 → ks.length + 2 ≠ s.count →
      s.results (k :: ks ++ [l]) ids = reports (ks.length + 2) []
        [.desegmentationError (some (s.count - (ks.length + 2)))]) ∧
    (k ≠ 0 →
      s.results (k :: ks ++ [l]) ids = reports (ks.length + 2) [.orphanFragment]
        [.desegmentationError none]) := by
  obtain ⟨hinit, -, hnear⟩ := List.isChain_append.1 hks
  have hlt : ∀ j ∈ k :: ks, j + 1 < s.count := fun j hj => by
    have := lt_of_isChain_near hks hj
    omega
  obtain ⟨⟨m, hrun, hheard⟩, hbefore⟩ := s.run_heard hinit hlt ids
  have hlast : Near (ks.getLastD k) l := by
    refine hnear _ ?_ l rfl
    rw [List.getLast?_cons, List.getLastD_eq_getLast?]
    rfl
  obtain ⟨hall, hsome, hnone⟩ := hheard.finish hlast hend (ids (ks.length + 1))
  -- What the last frame leads to comes behind what the others led to.
  have hresults : ∀ {i : Ingestion} {next : Option PartialMessage},
      Step s.flow (s.fragment l (ids (ks.length + 1))) (some m) i next →
      s.results (k :: ks ++ [l]) ids =
        reports (ks.length + 1) (if k = 0 then [] else [.orphanFragment]) [] ++ [i] := by
    intro i next hstep
    rw [← hbefore, results, results, s.heard_concat, List.map_append, List.map_singleton,
      FlowAction.log_concat_ingest, hrun, List.length_cons, hstep.ingestOne_eq, List.map_append]
    rfl
  refine ⟨fun h0 hcount => ?_, fun h0 hcount => ?_, fun h0 => ?_⟩
  · obtain ⟨message, next, hstep⟩ := hall h0 hcount
    rw [hresults hstep]
    exact ⟨_, List.mem_append_right _ List.mem_cons_self, message, rfl⟩
  · obtain ⟨next, hstep⟩ := hsome h0 hcount
    rw [hresults hstep, reports_succ_nil, if_pos h0]
    rfl
  · obtain ⟨next, hstep⟩ := hnone h0
    rw [hresults hstep, reports_succ_nil, if_neg h0]
    rfl

/-- Of several frames the last one alone arrives. -/
theorem results_last (hend : l + 1 = s.count) (hcount : 2 ≤ s.count) (ids : ℕ → FrameId) :
    s.results [l] ids = reports 1 [.orphanFragment] [.desegmentationError none] := by
  have hstep : Step s.flow (s.fragment l (ids 0)) none _ _ :=
    .orphanedEnd (s.position_header_last (by omega) hend)
  rw [results, s.heard_cons, List.map_cons, FlowAction.log, FlowAction.logged?, hstep.ingestOne_eq]
  rfl

/-- What any frames lead to, by the first and the last of them. -/
theorem results_of_isChain (hne : ks ≠ []) (hks : ks.IsChain Near) (hlt : ∀ j ∈ ks, j < s.count)
    (hcount : 2 ≤ s.count) (ids : ℕ → FrameId) :
    (ks.head hne = 0 → ks.getLast hne + 1 = s.count → ks.length = s.count →
      ∃ r ∈ s.results ks ids, ∃ message, r.outcome = .completed message) ∧
    (ks.head hne = 0 → ks.getLast hne + 1 = s.count → ks.length ≠ s.count →
      s.results ks ids =
        reports ks.length [] [.desegmentationError (some (s.count - ks.length))]) ∧
    (ks.head hne ≠ 0 → ks.getLast hne + 1 = s.count →
      s.results ks ids = reports ks.length [.orphanFragment] [.desegmentationError none]) ∧
    (ks.getLast hne + 1 ≠ s.count →
      s.results ks ids =
        reports ks.length (if ks.head hne = 0 then [] else [.orphanFragment]) []) := by
  obtain ⟨k, ks, rfl⟩ := List.exists_cons_of_ne_nil hne
  rw [List.head_cons]
  by_cases hend : (k :: ks).getLast hne + 1 = s.count
  · rcases List.eq_nil_or_concat' ks with rfl | ⟨ks, l, rfl⟩
    · rw [List.getLast_singleton] at hend ⊢
      have hlast := s.results_last hend hcount ids
      exact ⟨by omega, by omega, fun _ _ => hlast, fun h => absurd hend h⟩
    · have hgetLast : (k :: (ks ++ [l])).getLast hne = l := by simp
      rw [hgetLast] at hend ⊢
      obtain ⟨hall, hsome, hnone⟩ := s.results_concat hks hend ids
      have hlength : (k :: (ks ++ [l])).length = ks.length + 2 := by simp
      rw [hlength]
      exact ⟨fun h0 _ => hall h0, fun h0 _ => hsome h0, fun h0 _ => hnone h0,
        fun h => absurd hend h⟩
  · refine ⟨fun _ h => absurd h hend, fun _ h => absurd h hend, fun _ h => absurd h hend,
      fun _ => ?_⟩
    refine (s.run_heard hks (fun j hj => ?_) ids).2
    -- The last of them is not the last of the message, and none of them is behind it.
    have hle : j ≤ (k :: ks).getLast hne := by
      rw [← List.dropLast_append_getLast hne, List.mem_append, List.mem_singleton] at hj
      rcases hj with hj | hj
      · rw [← List.dropLast_append_getLast hne] at hks
        exact Nat.le_of_lt (lt_of_isChain_near hks hj)
      · exact Nat.le_of_eq hj
    have hlast := hlt _ (List.getLast_mem hne)
    omega

end Transmission

/-- Numbers of frames that go up are some of all the frames, in their order. -/
theorem sublist_finRange {n : ℕ} {l : List (Fin n)} (h : l.IsChain (· < ·)) :
    l.Sublist (List.finRange n) :=
  List.sublist_of_subperm_of_sortedLE
    (List.subperm_of_subset h.sortedLT.nodup fun i _ => List.mem_finRange i)
    h.sortedLT.sortedLE (List.sortedLT_finRange n).sortedLE

/-- **Losses are detected.** Of the frames of a transmission, two at least, the ones numbered `kept`
are taken in one after the other, on a flow with no partial message, and between one and the next at
most two are lost. The message is completed just if nothing is lost. If the first frame and the last
arrive, but not all, the last one tells how many are missing; if the first does not, the first that
does is reported as an orphan, and the last one, if it arrives, tells that the start was not seen; and
nothing else is reported. -/
theorem losses_detected (s : Transmission) (hcount : 2 ≤ s.frames.length)
    (kept : List (Fin s.frames.length)) (hne : kept ≠ [])
    (hkept : kept.IsChain fun i j => i.val < j.val ∧ j.val ≤ i.val + 3)
    (t : Reassembler) (ht : t.get? s.flow = none) (ids : ℕ → FrameId) :
    ∃ packets, (kept.map s.frames.get).mapM Packet.ofFrame = .ok packets ∧
      (∀ p ∈ packets, p.flow = s.flow) ∧
      let results := (t.log (arrivals packets ids)).map (·.result)
      let first := (kept.head hne).val
      let last := (kept.getLast hne).val
      ((∃ r ∈ results, ∃ message, r.outcome = .completed message) ↔
        kept = List.finRange s.frames.length) ∧
      (first = 0 → last + 1 = s.frames.length → kept.length < s.frames.length →
        results = reports kept.length []
          [.desegmentationError (some (s.frames.length - kept.length))]) ∧
      (first ≠ 0 → last + 1 = s.frames.length →
        results = reports kept.length [.orphanFragment] [.desegmentationError none]) ∧
      (last + 1 ≠ s.frames.length →
        results = reports kept.length (if first = 0 then [] else [.orphanFragment]) []) := by
  have hread : (kept.map s.frames.get).mapM Packet.ofFrame =
      .ok ((kept.map (·.val)).map s.packet) := by
    refine mapM_ok_of_forall₂ ?_
    rw [List.map_map, List.forall₂_map_left_iff, List.forall₂_map_right_iff]
    exact List.forall₂_same.2 fun i _ => s.ofFrame_getElem i.isLt
  refine ⟨_, hread, ?_, ?_⟩
  · intro p hp
    obtain ⟨k, -, rfl⟩ := List.mem_map.1 hp
    rfl
  · intro results first last
    have hmap : kept.map (·.val) ≠ [] := by simpa using hne
    have hfirst : (kept.map (·.val)).head hmap = first := by rw [List.head_map]
    have hlast : (kept.map (·.val)).getLast hmap = last := by rw [List.getLast_map]
    have hresults : results = s.results (kept.map (·.val)) ids := by
      show (t.log _).map _ = _
      rw [s.arrivals_map_packet, Reassembler.log_ingest, ht]
      rfl
    have hlt : ∀ k ∈ kept.map (·.val), k < s.count := by
      intro k hk
      obtain ⟨i, -, rfl⟩ := List.mem_map.1 hk
      exact Nat.lt_of_lt_of_eq i.isLt s.length_frames
    obtain ⟨hall, hsome, hnone, hopen⟩ := s.results_of_isChain hmap ((List.isChain_map _).2 hkept)
      hlt (by rwa [s.length_frames] at hcount) ids
    rw [hfirst, hlast, List.length_map, ← s.length_frames, ← hresults] at hall hsome hnone hopen
    have hsub := sublist_finRange (hkept.imp fun i j h => h.1)
    refine ⟨⟨?_, ?_⟩, fun h0 hn hlt => hsome h0 hn (Nat.ne_of_lt hlt), hnone, hopen⟩
    · rintro ⟨r, hr, message, hmessage⟩
      rw [← hsub.length_eq, List.length_finRange]
      -- In all other cases each answer is `buffered`.
      have hcompleted : ∀ n f l, results ≠ reports n f l := by
        intro n f l heq
        rw [heq] at hr
        rw [outcome_of_mem_reports hr] at hmessage
        cases hmessage
      by_contra hless
      by_cases hn : last + 1 = s.frames.length
      · by_cases h0 : first = 0
        · exact hcompleted _ _ _ (hsome h0 hn hless)
        · exact hcompleted _ _ _ (hnone h0 hn)
      · exact hcompleted _ _ _ (hopen hn)
    · rintro rfl
      refine hall ?_ ?_ List.length_finRange
      · show ((List.finRange _).head hne).val = 0
        rw [List.head_eq_getElem, List.getElem_finRange]
        rfl
      · show ((List.finRange _).getLast hne).val + 1 = _
        rw [List.getLast_eq_getElem, List.getElem_finRange]
        show (List.finRange _).length - 1 + 1 = _
        rw [List.length_finRange]
        omega

/-- Without its second frame. -/
theorem request_short_of_one :
    ∃ packets, [[0x01, 8, 16, 0xbb, 0x01, 0xaa], [0x01, 8, 16, 0x5b, 0xdd]].mapM Packet.ofFrame =
        .ok packets ∧
      ((∅ : Reassembler).log (arrivals packets UInt64.ofNat)).map (·.result) =
        [⟨.buffered, []⟩, ⟨.buffered, [.desegmentationError (some 1)]⟩] := by
  have hlength := Transmission.length_frames_request
  obtain ⟨packets, hread, -, -, hmiddle, -, -⟩ := losses_detected Transmission.request (by omega)
    [⟨0, by omega⟩, ⟨2, by omega⟩] (by simp) (by simp) ∅ (Reassembler.get?_emptyCollection _)
    UInt64.ofNat
  have hresults := hmiddle rfl (by simp [hlength]) (by simp [hlength])
  simp only [hlength] at hresults
  refine ⟨packets, ?_, hresults⟩
  rw [← hread]
  simp [Transmission.frames_request]

end MctpReceiver
