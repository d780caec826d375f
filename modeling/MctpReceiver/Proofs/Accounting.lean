import MctpReceiver.Proofs.Conservation
import Mathlib.Algebra.GroupWithZero.Nat
import Mathlib.Data.List.Flatten
import Mathlib.Data.List.Nodup

/-!
# What has become of every fragment

If the packets of a run come in frames with different numbers, every fragment has exactly one fate
after it (`fragments_accounted_for`): it is listed in one completed message, or it is pending, or it
was dropped when it arrived, or it was given up with the partial message that listed it. And the lists
are true: each names packets of its flow, in the order of their arrival, none of them twice, and tells
how many bytes they carry.

The fates are read off the law of conservation. `tagged as flow` are the fragments that a run keeps on
a flow, each with the fate of the list that it stands in; since no frame number occurs twice, a
fragment has one tag at most.
-/

namespace MctpReceiver

/-! ## Fates -/

/-- What has become of a fragment. -/
inductive Fate where
  /-- It is part of a completed message. -/
  | completed
  /-- It is listed in a pending message. -/
  | pending
  /-- It was not kept when it arrived. -/
  | dropped
  /-- It was given up with the rest of its message. -/
  | abandoned
  deriving DecidableEq, Repr

/-- The action gives up the partial message of a flow: a start of message on the flow supersedes it,
unless that repeats the latest fragment, or the owner discards it. -/
def Action.abandons (flow : Flow) (m : PartialMessage) : Action → Bool
  | ingest other f => decide (other = flow) && f.header.position == .first && !f.repeats m.latest
  | remove other => other = flow
  | filter keep => !keep flow m
  | clear => true

/-- What it means that the packet of an entry has had a fate in a run from the empty reassembler. -/
def Fate.Holds (as : List Action) (e : Entry) : Fate → Prop
  | completed => ∃ message,
      (completions ((∅ : Reassembler).log as)).filter (e.fragment.frame ∈ ·.frames) = [message] ∧
        message.flow = e.flow
  | pending => ∀ flow,
      (∃ m, ((∅ : Reassembler).run as).get? flow = some m ∧ e.fragment.frame ∈ m.frames) ↔
        flow = e.flow
  | dropped =>
      (Anomaly.overlap ∈ e.result.anomalies ∨ Anomaly.overlapConflict ∈ e.result.anomalies ∨
        Anomaly.tooLongFragment ∈ e.result.anomalies) ∧
      (∀ message ∈ completions ((∅ : Reassembler).log as), e.fragment.frame ∉ message.frames) ∧
      ∀ flow m, ((∅ : Reassembler).run as).get? flow = some m → e.fragment.frame ∉ m.frames
  | abandoned => ∃ before a after m, as = before ++ a :: after ∧
      ((∅ : Reassembler).run before).get? e.flow = some m ∧ e.fragment.frame ∈ m.frames ∧
        a.abandons e.flow m = true

/-- The frames are those of some packets in the log of a run, all on one flow and in the order of
their arrival, each of them once; and the packets carry so many bytes. -/
def ListsPackets (log : List Entry) (flow : Flow) (frames : List FrameId) (length : Nat) : Prop :=
  frames.Nodup ∧ ∃ es : List Entry, es.Sublist log ∧ (∀ e ∈ es, e.flow = flow) ∧
    frames = es.map (·.fragment.frame) ∧ length = (es.map (·.fragment.payload.length)).sum

/-! ## One flow -/

theorem Action.abandons_iff {flow : Flow} {m : PartialMessage} {a : Action} :
    a.abandons flow m = true ↔ ∃ b, a.on flow = some b ∧ b.abandons m = true := by
  cases a with
  | ingest other f =>
    by_cases h : other = flow <;> simp [abandons, on, FlowAction.abandons, h]
  | remove other =>
    by_cases h : other = flow <;> simp [abandons, on, FlowAction.abandons, h]
  | filter keep => simp [abandons, on, FlowAction.abandons]
  | clear => simp [abandons, on, FlowAction.abandons]

/-- The fate of the fragments of a closed message. -/
def Closing.fate (c : Closing) : Fate := if c.message?.isSome then .completed else .abandoned

theorem Closing.fate_eq_completed {c : Closing} :
    c.fate = .completed ↔ ∃ message, c.message? = some message := by
  unfold fate
  cases c.message? <;> simp

theorem Closing.fate_eq_abandoned {c : Closing} : c.fate = .abandoned ↔ c.message? = none := by
  unfold fate
  cases c.message? <;> simp

/-- What a run from the empty reassembler closes on a flow. -/
def closingsOn (as : List Action) (flow : Flow) : List Closing :=
  FlowAction.closings flow none (as.filterMap (·.on flow))

/-- The fragments that a run from the empty reassembler keeps on a flow, with their fates. -/
def tagged (as : List Action) (flow : Flow) : List (Fate × Fragment) :=
  (closingsOn as flow).flatMap (fun c => c.fragments.map (Prod.mk c.fate)) ++
    (listed (((∅ : Reassembler).run as).get? flow)).map (Prod.mk .pending)

variable {as : List Action} {flow : Flow} {e : Entry} {f : Fragment} {fate : Fate}

/-- Conservation on one flow of a run. -/
theorem keptIn_eq (as : List Action) (flow : Flow) :
    keptIn (((∅ : Reassembler).log as).filter (·.flow = flow)) =
      (closingsOn as flow).flatMap (·.fragments) ++
        listed (((∅ : Reassembler).run as).get? flow) := by
  rw [Reassembler.log_ofFlow, Reassembler.get?_run_empty, Reassembler.get?_emptyCollection]
  exact FlowAction.conservation flow none (as.filterMap (·.on flow))

theorem map_snd_tagged (as : List Action) (flow : Flow) :
    (tagged as flow).map Prod.snd =
      keptIn (((∅ : Reassembler).log as).filter (·.flow = flow)) := by
  rw [keptIn_eq, tagged, List.map_append, List.map_flatMap]
  simp [Function.comp_def]

/-- The frames of what is kept on a flow, in the order of their arrival. -/
theorem frames_keptIn_sublist (as : List Action) (flow : Flow) :
    ((keptIn (((∅ : Reassembler).log as).filter (·.flow = flow))).map (·.frame)).Sublist
      (((∅ : Reassembler).log as).map (·.fragment.frame)) := by
  rw [keptIn, List.map_map]
  exact (List.filter_sublist.trans List.filter_sublist).map _

theorem completions_filter (as : List Action) (flow : Flow) :
    completions (((∅ : Reassembler).log as).filter (·.flow = flow)) =
      (closingsOn as flow).filterMap (·.message?) := by
  rw [Reassembler.log_ofFlow, Reassembler.get?_emptyCollection, FlowAction.completions_log]
  rfl

/-- What is closed on a flow with a message is what the message is made of. -/
theorem message_of_mem_closingsOn {c : Closing} {message : Message} (hc : c ∈ closingsOn as flow)
    (hm : c.message? = some message) :
    message.flow = flow ∧ message.frames = c.fragments.map (·.frame) ∧
      message.payload = c.fragments.flatMap (·.payload) := by
  obtain ⟨before, a, after, -, h⟩ := FlowAction.mem_closings.1 hc
  exact FlowAction.message_of_closed? h hm

/-- What a packet completes was closed on its flow. -/
theorem exists_closing_of_completed {message : Message} (he : e ∈ (∅ : Reassembler).log as)
    (h : e.result.outcome.completed? = some message) :
    ∃ c ∈ closingsOn as e.flow, c.message? = some message := by
  have hmem : message ∈ completions (((∅ : Reassembler).log as).filter (·.flow = e.flow)) :=
    List.mem_filterMap.2 ⟨e, List.mem_filter.2 ⟨he, decide_eq_true rfl⟩, h⟩
  rw [completions_filter] at hmem
  exact List.mem_filterMap.1 hmem

/-- What is given up on a flow has its place in the run. -/
theorem exists_abandoned_iff :
    (∃ c ∈ closingsOn as flow, c.message? = none ∧ f ∈ c.fragments) ↔
      ∃ before a after m, as = before ++ a :: after ∧
        ((∅ : Reassembler).run before).get? flow = some m ∧ f ∈ m.fragments ∧
          a.abandons flow m = true := by
  constructor
  · rintro ⟨c, hc, hm, hf⟩
    obtain ⟨xs, b, ys, has, hclosed⟩ := FlowAction.mem_closings.1 hc
    obtain ⟨m, hm, hb, hfragments⟩ := FlowAction.abandons_of_closed? hclosed hm
    obtain ⟨before, a, after, rfl, ha, rfl, -⟩ := Action.exists_split_of_filterMap_on has
    exact ⟨before, a, after, m, rfl,
      (Reassembler.get?_run_empty before flow).trans hm, hfragments ▸ hf,
      Action.abandons_iff.2 ⟨b, ha, hb⟩⟩
  · rintro ⟨before, a, after, m, rfl, hm, hf, ha⟩
    obtain ⟨b, hon, hb⟩ := Action.abandons_iff.1 ha
    refine ⟨⟨m.fragments, none⟩, FlowAction.mem_closings.2 ⟨before.filterMap (·.on flow), b,
      after.filterMap (·.on flow), ?_, ?_⟩, rfl, hf⟩
    · rw [List.filterMap_append, List.filterMap_cons_some hon]
    · rw [← Reassembler.get?_run_empty, hm]
      exact FlowAction.closed?_of_abandons hb

/-! ## Tags -/

theorem mem_tagged (h : fate ≠ .pending) :
    (fate, f) ∈ tagged as flow ↔ ∃ c ∈ closingsOn as flow, c.fate = fate ∧ f ∈ c.fragments := by
  simp only [tagged, List.mem_append, List.mem_flatMap, List.mem_map, Prod.mk.injEq]
  constructor
  · rintro (⟨c, hc, g, hg, hfate, rfl⟩ | ⟨g, -, hfate, -⟩)
    · exact ⟨c, hc, hfate, hg⟩
    · exact absurd hfate.symm h
  · rintro ⟨c, hc, hfate, hf⟩
    exact Or.inl ⟨c, hc, f, hf, hfate, rfl⟩

theorem abandoned_mem_tagged :
    (Fate.abandoned, f) ∈ tagged as flow ↔
      ∃ before a after m, as = before ++ a :: after ∧
        ((∅ : Reassembler).run before).get? flow = some m ∧ f ∈ m.fragments ∧
          a.abandons flow m = true := by
  rw [mem_tagged (by simp), ← exists_abandoned_iff]
  simp only [Closing.fate_eq_abandoned]

theorem pending_mem_tagged :
    (Fate.pending, f) ∈ tagged as flow ↔
      ∃ m, ((∅ : Reassembler).run as).get? flow = some m ∧ f ∈ m.fragments := by
  have hclosing : ∀ c : Closing, c.fate ≠ .pending := by
    intro c
    unfold Closing.fate
    split <;> simp
  simp only [tagged, List.mem_append, List.mem_flatMap, List.mem_map, Prod.mk.injEq]
  constructor
  · rintro (⟨c, -, g, -, hfate, -⟩ | ⟨g, hg, -, rfl⟩)
    · exact absurd hfate (hclosing c)
    · cases hm : ((∅ : Reassembler).run as).get? flow with
      | none => simp [hm, listed] at hg
      | some m =>
        rw [hm] at hg
        exact ⟨m, rfl, hg⟩
  · rintro ⟨m, hm, hf⟩
    exact Or.inr ⟨f, by rwa [hm], trivial, rfl⟩

theorem dropped_not_mem_tagged : (Fate.dropped, f) ∉ tagged as flow := by
  rw [mem_tagged (by simp)]
  rintro ⟨c, -, hfate, -⟩
  unfold Closing.fate at hfate
  split at hfate <;> cases hfate

/-- A fragment that was kept has a tag. -/
theorem exists_mem_tagged (he : e ∈ (∅ : Reassembler).log as) (hk : e.kept = true) :
    ∃ fate, (fate, e.fragment) ∈ tagged as e.flow := by
  have hmem : e.fragment ∈ keptIn (((∅ : Reassembler).log as).filter (·.flow = e.flow)) :=
    List.mem_map_of_mem (List.mem_filter.2 ⟨List.mem_filter.2 ⟨he, decide_eq_true rfl⟩, hk⟩)
  rw [← map_snd_tagged] at hmem
  obtain ⟨⟨fate, f⟩, hf, rfl⟩ := List.mem_map.1 hmem
  exact ⟨fate, hf⟩

/-! ## Tags by frames -/

/-- In lists without a common element, an element has one list. -/
theorem filter_mem_eq_singleton {α β : Type} [DecidableEq β] {l : List α} {g : α → List β} {a : α}
    {x : β} (h : (l.flatMap g).Nodup) (ha : a ∈ l) (hx : x ∈ g a) : l.filter (x ∈ g ·) = [a] := by
  obtain ⟨xs, ys, rfl⟩ := List.append_of_mem ha
  rw [List.flatMap_append, List.flatMap_cons] at h
  obtain ⟨-, hrest, hbefore⟩ := List.nodup_append.1 h
  obtain ⟨-, -, hafter⟩ := List.nodup_append.1 hrest
  have hxs : xs.filter (x ∈ g ·) = [] := by
    refine List.filter_eq_nil_iff.2 fun b hb hxb => ?_
    exact hbefore x (List.mem_flatMap.2 ⟨b, hb, of_decide_eq_true hxb⟩) x
      (List.mem_append_left _ hx) rfl
  have hys : ys.filter (x ∈ g ·) = [] := by
    refine List.filter_eq_nil_iff.2 fun b hb hxb => ?_
    exact hafter x hx x (List.mem_flatMap.2 ⟨b, hb, of_decide_eq_true hxb⟩) rfl
  rw [List.filter_append, List.filter_cons_of_pos (by simpa using hx), hxs, hys, List.nil_append]

/-- The completed messages list what was closed with them. -/
theorem frames_filterMap_sublist {cs : List Closing}
    (h : ∀ c ∈ cs, ∀ message, c.message? = some message →
      message.frames = c.fragments.map (·.frame)) :
    ((cs.filterMap (·.message?)).flatMap (·.frames)).Sublist
      ((cs.flatMap (·.fragments)).map (·.frame)) := by
  induction cs with
  | nil => exact List.Sublist.refl _
  | cons c cs ih =>
    have ih := ih fun c' hc' => h c' (List.mem_cons_of_mem c hc')
    rw [List.flatMap_cons, List.map_append]
    cases hm : c.message? with
    | none =>
      rw [List.filterMap_cons_none hm]
      exact ih.trans (List.sublist_append_right _ _)
    | some message =>
      rw [List.filterMap_cons_some hm, List.flatMap_cons, h c List.mem_cons_self message hm]
      exact (List.Sublist.refl _).append ih

section Frames

variable (hframes : (((∅ : Reassembler).log as).map (·.fragment.frame)).Nodup)

include hframes

/-- A frame that has a tag is that of one packet, on the flow of the tag, and was kept. -/
theorem eq_of_mem_tagged (he : e ∈ (∅ : Reassembler).log as) (hf : (fate, f) ∈ tagged as flow)
    (hframe : f.frame = e.fragment.frame) :
    e.flow = flow ∧ e.kept = true ∧ e.fragment = f := by
  have hmem : f ∈ (tagged as flow).map Prod.snd := List.mem_map_of_mem hf
  rw [map_snd_tagged] at hmem
  obtain ⟨e', he', rfl⟩ := List.mem_map.1 hmem
  obtain ⟨he', hkept⟩ := List.mem_filter.1 he'
  obtain ⟨he', hflow⟩ := List.mem_filter.1 he'
  obtain rfl : e' = e := List.inj_on_of_nodup_map hframes he' he hframe
  exact ⟨of_decide_eq_true hflow, hkept, rfl⟩

/-- No fragment has two tags. -/
theorem fate_unique {fate' : Fate} (h : (fate, f) ∈ tagged as flow)
    (h' : (fate', f) ∈ tagged as flow) : fate = fate' := by
  have hnodup := hframes.sublist (frames_keptIn_sublist as flow)
  rw [← map_snd_tagged, List.map_map] at hnodup
  exact congrArg Prod.fst (List.inj_on_of_nodup_map hnodup h h' rfl)

/-- A completed message that lists a packet was closed on the packet's flow, with the packet. -/
theorem closing_of_listed {e' : Entry} {message : Message} (he : e ∈ (∅ : Reassembler).log as)
    (he' : e' ∈ (∅ : Reassembler).log as) (hm : e'.result.outcome.completed? = some message)
    (hx : e.fragment.frame ∈ message.frames) :
    e.flow = e'.flow ∧ (Fate.completed, e.fragment) ∈ tagged as e.flow := by
  obtain ⟨c, hc, hcm⟩ := exists_closing_of_completed he' hm
  rw [(message_of_mem_closingsOn hc hcm).2.1] at hx
  obtain ⟨f, hf, hframe⟩ := List.mem_map.1 hx
  have htag : (Fate.completed, f) ∈ tagged as e'.flow :=
    (mem_tagged (by simp)).2 ⟨c, hc, Closing.fate_eq_completed.2 ⟨message, hcm⟩, hf⟩
  obtain ⟨hflow, -, rfl⟩ := eq_of_mem_tagged hframes he htag hframe
  rw [hflow]
  exact ⟨rfl, htag⟩

/-- Only messages of the packet's flow list a packet. -/
theorem filter_completions (he : e ∈ (∅ : Reassembler).log as) :
    (completions ((∅ : Reassembler).log as)).filter (e.fragment.frame ∈ ·.frames) =
      ((closingsOn as e.flow).filterMap (·.message?)).filter (e.fragment.frame ∈ ·.frames) := by
  rw [← completions_filter, completions, completions, List.filter_filterMap, List.filter_filterMap,
    List.filterMap_filter]
  refine List.filterMap_congr fun e' he' => ?_
  split
  · rfl
  · next hne =>
    refine Option.filter_eq_none_iff.2 fun message hm hx => hne ?_
    exact decide_eq_true (closing_of_listed hframes he he' hm (of_decide_eq_true hx)).1.symm

theorem holds_completed_iff (he : e ∈ (∅ : Reassembler).log as) :
    Fate.completed.Holds as e ↔ (Fate.completed, e.fragment) ∈ tagged as e.flow := by
  constructor
  · rintro ⟨message, hfilter, -⟩
    have hmem : message ∈ (completions ((∅ : Reassembler).log as)).filter
        (e.fragment.frame ∈ ·.frames) := by
      rw [hfilter]
      exact List.mem_singleton_self message
    obtain ⟨hmem, hx⟩ := List.mem_filter.1 hmem
    obtain ⟨e', he', hm⟩ := List.mem_filterMap.1 hmem
    exact (closing_of_listed hframes he he' hm (of_decide_eq_true hx)).2
  · intro h
    obtain ⟨c, hc, hfate, hf⟩ := (mem_tagged (by simp)).1 h
    obtain ⟨message, hm⟩ := Closing.fate_eq_completed.1 hfate
    obtain ⟨hflow, hmframes, -⟩ := message_of_mem_closingsOn hc hm
    refine ⟨message, ?_, hflow⟩
    have hnodup : (((closingsOn as e.flow).flatMap (·.fragments)).map (·.frame)).Nodup := by
      have hkept := hframes.sublist (frames_keptIn_sublist as e.flow)
      rw [keptIn_eq, List.map_append] at hkept
      exact (List.nodup_append.1 hkept).1
    rw [filter_completions hframes he]
    refine filter_mem_eq_singleton (hnodup.sublist (frames_filterMap_sublist fun c hc message hm =>
      (message_of_mem_closingsOn hc hm).2.1)) (List.mem_filterMap.2 ⟨c, hc, hm⟩) ?_
    rw [hmframes]
    exact List.mem_map_of_mem hf

theorem holds_pending_iff (he : e ∈ (∅ : Reassembler).log as) :
    Fate.pending.Holds as e ↔ (Fate.pending, e.fragment) ∈ tagged as e.flow := by
  have htag : ∀ flow, (∃ m, ((∅ : Reassembler).run as).get? flow = some m ∧
      e.fragment.frame ∈ m.frames) → e.flow = flow ∧ (Fate.pending, e.fragment) ∈ tagged as flow := by
    rintro flow ⟨m, hm, hx⟩
    obtain ⟨f, hf, hframe⟩ := List.mem_map.1 hx
    have htag : (Fate.pending, f) ∈ tagged as flow := pending_mem_tagged.2 ⟨m, hm, hf⟩
    obtain ⟨hflow, -, rfl⟩ := eq_of_mem_tagged hframes he htag hframe
    exact ⟨hflow, htag⟩
  constructor
  · intro h
    exact (htag e.flow ((h e.flow).2 rfl)).2
  · intro h flow
    refine ⟨fun hlisted => (htag flow hlisted).1.symm, ?_⟩
    rintro rfl
    obtain ⟨m, hm, hf⟩ := pending_mem_tagged.1 h
    exact ⟨m, hm, List.mem_map_of_mem hf⟩

theorem holds_abandoned_iff (he : e ∈ (∅ : Reassembler).log as) :
    Fate.abandoned.Holds as e ↔ (Fate.abandoned, e.fragment) ∈ tagged as e.flow := by
  constructor
  · rintro ⟨before, a, after, m, has, hm, hx, ha⟩
    obtain ⟨f, hf, hframe⟩ := List.mem_map.1 hx
    have htag : (Fate.abandoned, f) ∈ tagged as e.flow :=
      abandoned_mem_tagged.2 ⟨before, a, after, m, has, hm, hf, ha⟩
    obtain ⟨-, -, rfl⟩ := eq_of_mem_tagged hframes he htag hframe
    exact htag
  · intro h
    obtain ⟨before, a, after, m, has, hm, hf, ha⟩ := abandoned_mem_tagged.1 h
    exact ⟨before, a, after, m, has, hm, List.mem_map_of_mem hf, ha⟩

/-- A packet that was not kept is listed nowhere. -/
theorem not_mem_frames_of_not_kept (he : e ∈ (∅ : Reassembler).log as) (hk : e.kept = false) :
    (∀ message ∈ completions ((∅ : Reassembler).log as), e.fragment.frame ∉ message.frames) ∧
      ∀ flow m, ((∅ : Reassembler).run as).get? flow = some m → e.fragment.frame ∉ m.frames := by
  have hnot : ∀ {fate flow f}, (fate, f) ∈ tagged as flow → f.frame ≠ e.fragment.frame := by
    intro fate flow f hf hframe
    have hkept := (eq_of_mem_tagged hframes he hf hframe).2.1
    rw [hk] at hkept
    cases hkept
  refine ⟨fun message hmessage hx => ?_, fun flow m hm hx => ?_⟩
  · obtain ⟨e', he', hm⟩ := List.mem_filterMap.1 hmessage
    exact hnot (closing_of_listed hframes he he' hm hx).2 rfl
  · obtain ⟨f, hf, hframe⟩ := List.mem_map.1 hx
    exact hnot (pending_mem_tagged.2 ⟨m, hm, hf⟩) hframe

theorem holds_dropped_iff (he : e ∈ (∅ : Reassembler).log as)
    (hf : e.fragment.header.position ≠ .single) : Fate.dropped.Holds as e ↔ e.kept = false := by
  constructor
  · intro h
    exact (Entry.kept_eq_false_iff hf).2 h.1
  · intro h
    exact ⟨(Entry.kept_eq_false_iff hf).1 h, not_mem_frames_of_not_kept hframes he h⟩

/-- Every fragment has one fate. -/
theorem existsUnique_fate (he : e ∈ (∅ : Reassembler).log as)
    (hf : e.fragment.header.position ≠ .single) : ∃! fate : Fate, fate.Holds as e := by
  have hholds : ∀ fate : Fate, fate.Holds as e ↔
      (fate, e.fragment) ∈ tagged as e.flow ∨ fate = .dropped ∧ e.kept = false := by
    intro fate
    cases fate with
    | completed => simp [holds_completed_iff hframes he]
    | pending => simp [holds_pending_iff hframes he]
    | dropped => simp [holds_dropped_iff hframes he hf, dropped_not_mem_tagged]
    | abandoned => simp [holds_abandoned_iff hframes he]
  simp only [hholds]
  cases hk : e.kept with
  | true =>
    obtain ⟨fate, htag⟩ := exists_mem_tagged he hk
    refine ⟨fate, Or.inl htag, ?_⟩
    rintro fate' (htag' | ⟨-, hk'⟩)
    · exact fate_unique hframes htag' htag
    · cases hk'
  | false =>
    refine ⟨.dropped, Or.inr ⟨rfl, rfl⟩, ?_⟩
    rintro fate (htag | ⟨hfate, -⟩)
    · rw [(eq_of_mem_tagged hframes he htag rfl).2.1] at hk
      cases hk
    · exact hfate

/-- What was kept on a flow in this order may be listed. -/
theorem listsPackets_of_sublist {fs : List Fragment}
    (h : fs.Sublist (keptIn (((∅ : Reassembler).log as).filter (·.flow = flow)))) :
    ListsPackets ((∅ : Reassembler).log as) flow (fs.map (·.frame))
      (fs.map (·.payload.length)).sum := by
  refine ⟨hframes.sublist ((h.map _).trans (frames_keptIn_sublist as flow)), ?_⟩
  obtain ⟨es, hes, rfl⟩ := List.sublist_map_iff.1 h
  have hflow := hes.trans List.filter_sublist
  refine ⟨es, hflow.trans List.filter_sublist, fun e he => ?_, by rw [List.map_map]; rfl,
    by rw [List.map_map]; rfl⟩
  exact of_decide_eq_true (List.mem_filter.1 (hflow.subset he)).2

end Frames

/-- **Every fragment is accounted for once.** If the packets of a run from the empty reassembler come in
frames with different numbers, every fragment among them has exactly one fate after it. What is
completed and what is pending lists packets of its own flow, in the order of their arrival and none of
them twice, and is as long as the packets are together. -/
theorem fragments_accounted_for (as : List Action)
    (hframes : (((∅ : Reassembler).log as).map (·.fragment.frame)).Nodup) :
    (∀ e ∈ (∅ : Reassembler).log as, e.fragment.header.position ≠ .single →
      ∃! fate : Fate, fate.Holds as e) ∧
    (∀ message ∈ completions ((∅ : Reassembler).log as),
      ListsPackets ((∅ : Reassembler).log as) message.flow message.frames
        message.payload.length) ∧
    ∀ flow m, ((∅ : Reassembler).run as).get? flow = some m →
      ListsPackets ((∅ : Reassembler).log as) flow m.frames m.length := by
  refine ⟨fun e he hf => existsUnique_fate hframes he hf, fun message hmessage => ?_,
    fun flow m hm => ?_⟩
  · obtain ⟨e, he, hcompleted⟩ := List.mem_filterMap.1 hmessage
    obtain ⟨c, hc, hcm⟩ := exists_closing_of_completed he hcompleted
    obtain ⟨hflow, hmframes, hpayload⟩ := message_of_mem_closingsOn hc hcm
    have hsublist : c.fragments.Sublist
        (keptIn (((∅ : Reassembler).log as).filter (·.flow = e.flow))) := by
      have hclosed := (List.singleton_sublist.2 hc).flatMap (·.fragments)
      rw [List.flatMap_singleton] at hclosed
      rw [keptIn_eq]
      exact hclosed.trans (List.sublist_append_left _ _)
    rw [hflow, hmframes, hpayload, List.length_flatMap]
    exact listsPackets_of_sublist hframes hsublist
  · have hsublist : m.fragments.Sublist
        (keptIn (((∅ : Reassembler).log as).filter (·.flow = flow))) := by
      rw [keptIn_eq, hm]
      exact List.sublist_append_right _ _
    rw [← m.length_payload, PartialMessage.payload, List.length_flatMap]
    exact listsPackets_of_sublist hframes hsublist

/-- A start that another one supersedes; that one twice, and its end; and one more start. -/
def overtaken : List Fragment :=
  [⟨.ofFlags .one ⟨8, 16⟩ 0x8b, [0x01], 0⟩, ⟨.ofFlags .one ⟨8, 16⟩ 0x9b, [0x02], 1⟩,
    ⟨.ofFlags .one ⟨8, 16⟩ 0x9b, [0x02], 2⟩, ⟨.ofFlags .one ⟨8, 16⟩ 0x6b, [0x03], 3⟩,
    ⟨.ofFlags .one ⟨8, 16⟩ 0x8b, [0x04], 4⟩]

theorem overtaken_accounted_for :
    (∀ e ∈ (∅ : Reassembler).log (overtaken.map (.ingest ⟨⟨8, 16⟩, ⟨true, 3⟩⟩)),
      ∃! fate : Fate, fate.Holds (overtaken.map (.ingest ⟨⟨8, 16⟩, ⟨true, 3⟩⟩)) e) ∧
    ListsPackets ((∅ : Reassembler).log (overtaken.map (.ingest ⟨⟨8, 16⟩, ⟨true, 3⟩⟩)))
      ⟨⟨8, 16⟩, ⟨true, 3⟩⟩ [1, 3] 2 := by
  have hlog := Reassembler.log_ingest ∅ ⟨⟨8, 16⟩, ⟨true, 3⟩⟩ overtaken
  rw [Reassembler.get?_emptyCollection] at hlog
  obtain ⟨hfates, hcompleted, -⟩ :=
    fragments_accounted_for (overtaken.map (.ingest ⟨⟨8, 16⟩, ⟨true, 3⟩⟩))
      (by rw [hlog]; decide)
  constructor
  · intro e he
    refine hfates e he ?_
    rw [hlog] at he
    revert e
    decide
  · refine hcompleted ⟨⟨⟨8, 16⟩, ⟨true, 3⟩⟩, [0x02, 0x03], 1, 3, [1, 3], false⟩ ?_
    rw [hlog]
    decide

end MctpReceiver
