import MctpReceiver.Proofs.Steps

/-!
# Conservation of fragments

No fragment of a flow is lost, and none is there twice. The fragments that a run keeps, in the order
of their arrival, are those of the partial messages that it closes, one after the other, and behind
them those still pending (`FlowAction.conservation`). A partial message is closed when it is completed,
when a start of message supersedes it or when the owner discards it.

The law holds for each action (`FlowAction.balance`), and with what was pending before for every run.
-/

namespace MctpReceiver

/-! ## What is kept -/

/-- The fragment was dropped: it repeats the latest one, or lies beyond the end of the message. -/
def Anomaly.isDrop : Anomaly → Bool
  | .overlap | .overlapConflict | .tooLongFragment => true
  | .orphanFragment | .multipleTails | .desegmentationError _ => false

theorem Anomaly.isDrop_iff {a : Anomaly} :
    a.isDrop = true ↔ a = .overlap ∨ a = .overlapConflict ∨ a = .tooLongFragment := by
  cases a <;> simp [isDrop]

/-- The packet is a fragment and was not dropped. -/
def Entry.kept (e : Entry) : Bool :=
  e.fragment.header.isFragment && !e.result.anomalies.any (·.isDrop)

/-- The fragments that were kept of a log, in the order of their arrival. -/
def keptIn (log : List Entry) : List Fragment := (log.filter (·.kept)).map (·.fragment)

theorem keptIn_append (xs ys : List Entry) : keptIn (xs ++ ys) = keptIn xs ++ keptIn ys := by
  unfold keptIn
  rw [List.filter_append, List.map_append]

/-- The fragments that are pending on a flow. -/
def listed : Option PartialMessage → List Fragment
  | none => []
  | some m => m.fragments

/-! ## What is closed -/

/-- A partial message that a flow is done with: its fragments, and the message if they made one up. -/
structure Closing where
  fragments : List Fragment
  message? : Option Message
  deriving DecidableEq, Repr

def Outcome.completed? : Outcome → Option Message
  | .completed message => some message
  | .buffered | .single _ => none

/-- The messages completed in a log, in order. -/
def completions (log : List Entry) : List Message := log.filterMap (·.result.outcome.completed?)

theorem completions_append (xs ys : List Entry) :
    completions (xs ++ ys) = completions xs ++ completions ys := List.filterMap_append

namespace FlowAction

variable (flow : Flow)

/-- The action gives the partial message up: a start of message supersedes it, unless that repeats
the latest fragment, or the owner discards it. -/
def abandons (m : PartialMessage) : FlowAction → Bool
  | ingest f => f.header.position == .first && !f.repeats m.latest
  | filter keep => !keep m

/-- What an action closes. -/
def closed? (pending : Option PartialMessage) (a : FlowAction) : Option Closing :=
  pending.bind fun m =>
    if a.abandons m then some ⟨m.fragments, none⟩
    else match a with
      | ingest f => (ingestOne flow (some m) f).1.outcome.completed?.map fun message =>
          ⟨m.fragments ++ [f], some message⟩
      | filter _ => none

/-- What a run closes, in order. -/
def closings : Option PartialMessage → List FlowAction → List Closing
  | _, [] => []
  | pending, a :: as => (a.closed? flow pending).toList ++ closings (a.apply flow pending) as

variable {flow} {f : Fragment} {pending next : Option PartialMessage} {i : Ingestion}
  {a : FlowAction} {c : Closing}

theorem abandons_ingest {m : PartialMessage} :
    (ingest f).abandons m = true ↔ f.header.position = .first ∧ f.repeats m.latest = false := by
  simp [abandons]

/-- A packet that gives nothing up closes what it completes. -/
theorem closed?_ingest {m : PartialMessage}
    (h : f.header.position = .first → f.repeats m.latest = true)
    (hstep : Step flow f (some m) i next) :
    (ingest f).closed? flow (some m) =
      i.outcome.completed?.map fun message => ⟨m.fragments ++ [f], some message⟩ := by
  have hnot : ¬ (ingest f).abandons m = true := by
    intro ha
    obtain ⟨hf, hr⟩ := abandons_ingest.1 ha
    rw [h hf] at hr
    cases hr
  simp only [closed?, Option.bind_some, if_neg hnot, hstep.ingestOne_eq]

theorem closed?_of_abandons {m : PartialMessage} (h : a.abandons m = true) :
    a.closed? flow (some m) = some ⟨m.fragments, none⟩ := by
  unfold closed?
  rw [Option.bind_some, if_pos h]

end FlowAction

/-! ## One packet -/

theorem Entry.kept_eq_false_of_single {e : Entry} (h : e.fragment.header.position = .single) :
    e.kept = false := by
  simp [kept, Header.isFragment_eq_false.2 h]

theorem Entry.kept_of_forall {e : Entry} (h : e.fragment.header.position ≠ .single)
    (ha : ∀ a ∈ e.result.anomalies, a.isDrop = false) : e.kept = true := by
  simp only [kept, Bool.and_eq_true, Header.isFragment_iff, ne_eq, h, not_false_eq_true, true_and,
    Bool.not_eq_true', List.any_eq_false, Bool.not_eq_true]
  exact ha

/-- A fragment that was not kept was reported as dropped. -/
theorem Entry.kept_eq_false_iff {e : Entry} (h : e.fragment.header.position ≠ .single) :
    e.kept = false ↔ Anomaly.overlap ∈ e.result.anomalies ∨
      Anomaly.overlapConflict ∈ e.result.anomalies ∨
        Anomaly.tooLongFragment ∈ e.result.anomalies := by
  have hdrop : e.kept = false ↔ ∃ a ∈ e.result.anomalies, a.isDrop = true := by
    simp [kept, (Header.isFragment_iff _).2 h]
  simp only [hdrop, Anomaly.isDrop_iff]
  constructor
  · rintro ⟨a, ha, rfl | rfl | rfl⟩
    · exact Or.inl ha
    · exact Or.inr (Or.inl ha)
    · exact Or.inr (Or.inr ha)
  · rintro (h | h | h)
    · exact ⟨_, h, Or.inl rfl⟩
    · exact ⟨_, h, Or.inr (Or.inl rfl)⟩
    · exact ⟨_, h, Or.inr (Or.inr rfl)⟩

theorem keptIn_of_kept {e : Entry} (h : e.kept = true) : keptIn [e] = [e.fragment] := by
  simp [keptIn, h]

theorem keptIn_of_not_kept {e : Entry} (h : e.kept = false) : keptIn [e] = [] := by
  simp [keptIn, h]

section Step

variable {flow : Flow} {f : Fragment} {pending next : Option PartialMessage} {i : Ingestion}

/-- What was pending and the packet, if it is kept, are what the packet closes and what is pending
then. -/
theorem Step.balance (hstep : Step flow f pending i next) :
    listed pending ++ keptIn [⟨flow, f, i⟩] =
      (FlowAction.closed? flow pending (.ingest f)).toList.flatMap (·.fragments) ++
        listed next := by
  have h := hstep
  cases hstep with
  | single hf =>
    rw [keptIn_of_not_kept (Entry.kept_eq_false_of_single hf), List.append_nil]
    cases pending with
    | none => rfl
    | some m =>
      rw [FlowAction.closed?_ingest (by simp [hf]) h]
      rfl
  | opened hf | orphaned hf | orphanedEnd hf =>
    rw [keptIn_of_kept (Entry.kept_of_forall (by simp [hf]) (by simp [Anomaly.isDrop]))]
    rfl
  | repeated hf hr | conflicting hf hr =>
    rw [FlowAction.closed?_ingest (fun _ => hr) h,
      keptIn_of_not_kept (by simp [Entry.kept, Anomaly.isDrop]), List.append_nil]
    rfl
  | restarted hf hr =>
    rw [FlowAction.closed?_of_abandons (FlowAction.abandons_ingest.2 ⟨hf, hr⟩),
      keptIn_of_kept (Entry.kept_of_forall (by simp [hf]) (by simp))]
    simp [listed]
  | beyond hf hr ht =>
    rw [FlowAction.closed?_ingest (by simp [hf]) h,
      keptIn_of_not_kept (by simp [Entry.kept, Anomaly.isDrop]), List.append_nil]
    rfl
  | continued hf hr ht =>
    rw [FlowAction.closed?_ingest (by simp [hf]) h,
      keptIn_of_kept (Entry.kept_of_forall (by simp [hf]) (by simp))]
    simp [listed, Outcome.completed?]
  | @completed m hf hr hc =>
    have hkept : ∀ a ∈ (if m.hasTail then [Anomaly.multipleTails] else []), a.isDrop = false := by
      cases m.hasTail <;> simp [Anomaly.isDrop]
    rw [FlowAction.closed?_ingest (by simp [hf]) h,
      keptIn_of_kept (Entry.kept_of_forall (by simp [hf]) hkept)]
    simp [listed, Outcome.completed?]
  | @failed m missing hf hr hc =>
    have hkept : ∀ a ∈ (if m.hasTail then [Anomaly.multipleTails] else []) ++
        [Anomaly.desegmentationError missing], a.isDrop = false := by
      cases m.hasTail <;> simp [Anomaly.isDrop]
    rw [FlowAction.closed?_ingest (by simp [hf]) h,
      keptIn_of_kept (Entry.kept_of_forall (by simp [hf]) hkept)]
    simp [listed, Outcome.completed?]

/-- A packet closes a message just if it completes that. -/
theorem Step.completions_eq (hstep : Step flow f pending i next) :
    completions [⟨flow, f, i⟩] =
      (FlowAction.closed? flow pending (.ingest f)).toList.filterMap (·.message?) := by
  have hcompletions : completions [⟨flow, f, i⟩] = i.outcome.completed?.toList := by
    cases h : i.outcome.completed? <;> simp [completions, h]
  rw [hcompletions]
  cases pending with
  | none => cases hstep <;> rfl
  | some m =>
    by_cases ha : (FlowAction.ingest f).abandons m = true
    · obtain ⟨hf, hr⟩ := FlowAction.abandons_ingest.1 ha
      rw [FlowAction.closed?_of_abandons ha, (hstep.unique (.restarted hf hr)).1]
      rfl
    · have hr : f.header.position = .first → f.repeats m.latest = true := by
        intro hf
        by_contra hr
        exact ha (FlowAction.abandons_ingest.2 ⟨hf, by simpa using hr⟩)
      rw [FlowAction.closed?_ingest hr hstep]
      cases i.outcome.completed? <;> rfl

/-- A completed message is put together from the fragments that its flow is then done with. -/
theorem Step.message_of_completed {m : PartialMessage} {message : Message}
    (hstep : Step flow f (some m) i next) (h : i.outcome.completed? = some message) :
    message = (m.append f).assemble flow f.frame := by
  cases hstep with
  | completed => exact (Option.some.inj h).symm
  | single | repeated | conflicting | restarted | beyond | continued | failed => cases h

end Step

/-! ## One action -/

namespace FlowAction

variable {flow : Flow} {pending : Option PartialMessage} {a : FlowAction} {c : Closing}

theorem exists_of_closed? (h : a.closed? flow pending = some c) :
    ∃ m, pending = some m ∧
      (a.abandons m = true ∧ c = ⟨m.fragments, none⟩ ∨
        ∃ f message, a = .ingest f ∧ (ingestOne flow pending f).1.outcome.completed? = some message ∧
          c = ⟨m.fragments ++ [f], some message⟩) := by
  obtain ⟨m, rfl, hm⟩ := Option.bind_eq_some_iff.1 h
  refine ⟨m, rfl, ?_⟩
  by_cases ha : a.abandons m = true
  · rw [if_pos ha] at hm
    exact Or.inl ⟨ha, (Option.some.inj hm).symm⟩
  · rw [if_neg ha] at hm
    cases a with
    | filter keep => cases hm
    | ingest f =>
      obtain ⟨message, hmessage, rfl⟩ := Option.map_eq_some_iff.1 hm
      exact Or.inr ⟨f, message, rfl, hmessage, rfl⟩

/-- What is closed without a message was given up. -/
theorem abandons_of_closed? (h : a.closed? flow pending = some c) (hc : c.message? = none) :
    ∃ m, pending = some m ∧ a.abandons m = true ∧ c.fragments = m.fragments := by
  obtain ⟨m, hm, ⟨ha, rfl⟩ | ⟨f, message, rfl, -, rfl⟩⟩ := exists_of_closed? h
  · exact ⟨m, hm, ha, rfl⟩
  · cases hc

/-- What is closed with a message is what the message is made of. -/
theorem message_of_closed? {message : Message} (h : a.closed? flow pending = some c)
    (hc : c.message? = some message) :
    message.flow = flow ∧ message.frames = c.fragments.map (·.frame) ∧
      message.payload = c.fragments.flatMap (·.payload) := by
  obtain ⟨m, rfl, ⟨ha, rfl⟩ | ⟨f, message', rfl, hcompleted, rfl⟩⟩ := exists_of_closed? h
  · cases hc
  · obtain rfl : message' = message := Option.some.inj hc
    rw [(step_ingestOne flow f (some m)).message_of_completed hcompleted,
      ← PartialMessage.fragments_append]
    exact ⟨rfl, rfl, rfl⟩

/-- What was pending and what an action keeps are what it closes and what is pending then. -/
theorem balance (flow : Flow) (pending : Option PartialMessage) (a : FlowAction) :
    listed pending ++ keptIn (a.logged? flow pending).toList =
      (a.closed? flow pending).toList.flatMap (·.fragments) ++ listed (a.apply flow pending) := by
  cases a with
  | ingest f => exact (step_ingestOne flow f pending).balance
  | filter keep =>
    cases pending with
    | none => rfl
    | some m =>
      cases hk : keep m <;>
        simp [logged?, keptIn, apply, closed?, abandons, Option.filter, hk, listed]

theorem completions_logged? (flow : Flow) (pending : Option PartialMessage) (a : FlowAction) :
    completions (a.logged? flow pending).toList =
      (a.closed? flow pending).toList.filterMap (·.message?) := by
  cases a with
  | ingest f => exact (step_ingestOne flow f pending).completions_eq
  | filter keep =>
    cases pending with
    | none => rfl
    | some m => cases hk : keep m <;> simp [logged?, completions, closed?, abandons, hk]

/-! ## Runs -/

/-- **Conservation.** What was pending and what a run keeps are, in this order, what it closes, one
after the other, and what is pending then. -/
theorem conservation (flow : Flow) (pending : Option PartialMessage) (as : List FlowAction) :
    listed pending ++ keptIn (log flow pending as) =
      (closings flow pending as).flatMap (·.fragments) ++ listed (run flow pending as) := by
  induction as generalizing pending with
  | nil => simp [log, keptIn, closings]
  | cons a as ih =>
    calc listed pending ++ keptIn (log flow pending (a :: as))
        = (listed pending ++ keptIn (a.logged? flow pending).toList) ++
            keptIn (log flow (a.apply flow pending) as) := by
          rw [log, keptIn_append, List.append_assoc]
      _ = (a.closed? flow pending).toList.flatMap (·.fragments) ++
            (listed (a.apply flow pending) ++ keptIn (log flow (a.apply flow pending) as)) := by
          rw [balance, List.append_assoc]
      _ = _ := by
          rw [ih, closings, List.flatMap_append, List.append_assoc]
          rfl

/-- The messages in the log of a run are those that it closes. -/
theorem completions_log (flow : Flow) (pending : Option PartialMessage) (as : List FlowAction) :
    completions (log flow pending as) =
      (closings flow pending as).filterMap (·.message?) := by
  induction as generalizing pending with
  | nil => rfl
  | cons a as ih => rw [log, completions_append, completions_logged?, ih, closings,
      List.filterMap_append]

/-- What a run closes has its place in it. -/
theorem mem_closings {as : List FlowAction} :
    c ∈ closings flow pending as ↔
      ∃ before a after, as = before ++ a :: after ∧
        a.closed? flow (run flow pending before) = some c := by
  induction as generalizing pending with
  | nil => simp [closings]
  | cons a as ih =>
    rw [closings, List.mem_append, ih, Option.mem_toList]
    constructor
    · rintro (h | ⟨before, b, after, rfl, h⟩)
      · exact ⟨[], a, as, rfl, h⟩
      · exact ⟨a :: before, b, after, rfl, h⟩
    · rintro ⟨before, b, after, heq, h⟩
      cases before with
      | nil =>
        obtain ⟨rfl, rfl⟩ := List.cons.inj heq
        exact Or.inl h
      | cons a' before =>
        obtain ⟨rfl, rfl⟩ := List.cons.inj heq
        exact Or.inr ⟨before, b, after, rfl, h⟩

end FlowAction

end MctpReceiver
