import MctpReceiver.Assembly.Reassembler
import Mathlib.Data.List.Basic

/-!
# Runs of a reassembler

The owner of a reassembler hands it packets and discards partial messages, in any order. A run is a
list of such actions: `Reassembler.run` is the reassembler after it, and `Reassembler.log` holds what
each of its packets led to.

To one flow an action is a `FlowAction`, or nothing at all if it concerns another flow (`Action.on`).
A run, as far as one flow can tell, is the run of its own actions from its own partial message:
`get?_run` says so of the state and `log_ofFlow` of the answers.
-/

namespace MctpReceiver

/-- What the owner of a reassembler does with it. -/
inductive Action where
  | ingest (flow : Flow) (f : Fragment)
  | remove (flow : Flow)
  | filter (keep : Flow → PartialMessage → Bool)
  | clear

/-- What an action is to a flow that it concerns. -/
inductive FlowAction where
  | ingest (f : Fragment)
  /-- The partial message is discarded unless it satisfies a condition. -/
  | filter (keep : PartialMessage → Bool)

/-- A packet of a run, and what it led to. -/
structure Entry where
  flow : Flow
  fragment : Fragment
  result : Ingestion
  deriving DecidableEq, Repr

/-! ## One flow -/

namespace FlowAction

variable (flow : Flow)

/-- The partial message of the flow after an action. -/
def apply (pending : Option PartialMessage) : FlowAction → Option PartialMessage
  | ingest f => (ingestOne flow pending f).2
  | filter keep => pending.filter keep

/-- What an action adds to the log. -/
def logged? (pending : Option PartialMessage) : FlowAction → Option Entry
  | ingest f => some ⟨flow, f, (ingestOne flow pending f).1⟩
  | filter _ => none

/-- The partial message of the flow after a run. -/
def run (pending : Option PartialMessage) (as : List FlowAction) : Option PartialMessage :=
  as.foldl (apply flow) pending

/-- The packets of a run, in order, with what each led to. -/
def log : Option PartialMessage → List FlowAction → List Entry
  | _, [] => []
  | pending, a :: as => (a.logged? flow pending).toList ++ log (a.apply flow pending) as

@[simp] theorem run_nil (pending : Option PartialMessage) : run flow pending [] = pending := rfl

@[simp] theorem run_cons (pending : Option PartialMessage) (a : FlowAction) (as : List FlowAction) :
    run flow pending (a :: as) = run flow (a.apply flow pending) as := rfl

theorem log_singleton (pending : Option PartialMessage) (f : Fragment) :
    log flow pending [.ingest f] = [⟨flow, f, (ingestOne flow pending f).1⟩] := rfl

theorem run_append (pending : Option PartialMessage) (as bs : List FlowAction) :
    run flow pending (as ++ bs) = run flow (run flow pending as) bs := List.foldl_append

theorem log_append (pending : Option PartialMessage) (as bs : List FlowAction) :
    log flow pending (as ++ bs) = log flow pending as ++ log flow (run flow pending as) bs := by
  induction as generalizing pending with
  | nil => rfl
  | cons a as ih => simp only [List.cons_append, log, ih, run_cons, List.append_assoc]

/-- Each packet has an entry. -/
theorem length_log_ingest (pending : Option PartialMessage) (fs : List Fragment) :
    (log flow pending (fs.map .ingest)).length = fs.length := by
  induction fs generalizing pending with
  | nil => rfl
  | cons f fs ih =>
    rw [List.map_cons, log, List.length_append, ih, List.length_cons, Nat.add_comm]
    rfl

theorem run_concat_ingest (pending : Option PartialMessage) (as : List FlowAction) (f : Fragment) :
    run flow pending (as ++ [.ingest f]) = (ingestOne flow (run flow pending as) f).2 :=
  run_append flow pending as _

theorem log_concat_ingest (pending : Option PartialMessage) (as : List FlowAction) (f : Fragment) :
    log flow pending (as ++ [.ingest f]) =
      log flow pending as ++ [⟨flow, f, (ingestOne flow (run flow pending as) f).1⟩] :=
  log_append flow pending as _

end FlowAction

/-! ## All flows -/

namespace Action

/-- What the action is to a flow, if it concerns the flow. -/
def on (flow : Flow) : Action → Option FlowAction
  | ingest other f => if other = flow then some (.ingest f) else none
  | remove other => if other = flow then some (.filter fun _ => false) else none
  | filter keep => some (.filter (keep flow))
  | clear => some (.filter fun _ => false)

/-- The action is not a packet or a removal on another flow. -/
def concerns (flow : Flow) : Action → Bool
  | ingest other _ | remove other => other = flow
  | filter _ | clear => true

theorem isSome_on (flow : Flow) (a : Action) : (a.on flow).isSome = a.concerns flow := by
  cases a with
  | ingest other f => by_cases h : other = flow <;> simp [on, concerns, h]
  | remove other => by_cases h : other = flow <;> simp [on, concerns, h]
  | filter keep => rfl
  | clear => rfl

theorem on_eq_ingest {flow : Flow} {a : Action} {f : Fragment} (h : a.on flow = some (.ingest f)) :
    a = .ingest flow f := by
  cases a with
  | ingest other g =>
    by_cases ho : other = flow
    · simp only [on, ho, if_true, Option.some.injEq, FlowAction.ingest.injEq] at h
      rw [ho, h]
    · simp [on, ho] at h
  | remove other => by_cases ho : other = flow <;> simp [on, ho] at h
  | filter keep => simp [on] at h
  | clear => simp [on] at h

/-- What is done to a flow has its place in the run, with the actions of the flow before and after. -/
theorem exists_split_of_filterMap_on {flow : Flow} {as : List Action} {xs ys : List FlowAction}
    {b : FlowAction} (h : as.filterMap (·.on flow) = xs ++ b :: ys) :
    ∃ before a after, as = before ++ a :: after ∧ a.on flow = some b ∧
      before.filterMap (·.on flow) = xs ∧ after.filterMap (·.on flow) = ys := by
  obtain ⟨before, rest, rfl, hxs, hrest⟩ := List.filterMap_eq_append_iff.1 h
  obtain ⟨skipped, a, after, rfl, hskip, ha, hys⟩ := List.filterMap_eq_cons_iff.1 hrest
  refine ⟨before ++ skipped, a, after, by rw [List.append_assoc], ha, ?_, hys⟩
  rw [List.filterMap_append, hxs, List.filterMap_eq_nil_iff.2 hskip, List.append_nil]

/-- A packet to a flow has its place in the run, with the actions of the flow before and after. -/
theorem exists_split_of_on {flow : Flow} {as : List Action} {xs ys : List FlowAction} {f : Fragment}
    (h : as.filterMap (·.on flow) = xs ++ .ingest f :: ys) :
    ∃ before after, as = before ++ .ingest flow f :: after ∧
      before.filterMap (·.on flow) = xs ∧ after.filterMap (·.on flow) = ys := by
  obtain ⟨before, a, after, has, ha, hxs, hys⟩ := exists_split_of_filterMap_on h
  rw [on_eq_ingest ha] at has
  exact ⟨before, after, has, hxs, hys⟩

theorem filterMap_on_ingest (flow other : Flow) (fs : List Fragment) :
    (fs.map (ingest flow)).filterMap (·.on other) =
      if flow = other then fs.map .ingest else [] := by
  by_cases h : flow = other
  · simp [on, h, List.filterMap_map, List.filterMap_eq_map']
  · simp [on, h, List.filterMap_map]

end Action

namespace Reassembler

/-- The reassembler after an action. -/
def apply (t : Reassembler) : Action → Reassembler
  | .ingest flow f => (t.ingest flow f).2
  | .remove flow => (t.remove flow).2
  | .filter keep => t.filter keep
  | .clear => ∅

/-- What an action adds to the log. -/
def logged? (t : Reassembler) : Action → Option Entry
  | .ingest flow f => some ⟨flow, f, (t.ingest flow f).1⟩
  | .remove _ | .filter _ | .clear => none

/-- The reassembler after a run. -/
def run (t : Reassembler) (as : List Action) : Reassembler := as.foldl apply t

/-- The packets of a run, in order, with what each led to. -/
def log : Reassembler → List Action → List Entry
  | _, [] => []
  | t, a :: as => (t.logged? a).toList ++ log (t.apply a) as

@[simp] theorem run_nil (t : Reassembler) : t.run [] = t := rfl

@[simp] theorem run_cons (t : Reassembler) (a : Action) (as : List Action) :
    t.run (a :: as) = (t.apply a).run as := rfl

theorem run_append (t : Reassembler) (as bs : List Action) :
    t.run (as ++ bs) = (t.run as).run bs := List.foldl_append

theorem log_append (t : Reassembler) (as bs : List Action) :
    t.log (as ++ bs) = t.log as ++ (t.run as).log bs := by
  induction as generalizing t with
  | nil => rfl
  | cons a as ih => simp only [List.cons_append, log, ih, run_cons, List.append_assoc]

theorem run_concat (t : Reassembler) (as : List Action) (a : Action) :
    t.run (as ++ [a]) = (t.run as).apply a :=
  run_append t as [a]

theorem log_concat_ingest (t : Reassembler) (as : List Action) (flow : Flow) (f : Fragment) :
    t.log (as ++ [.ingest flow f]) = t.log as ++ [⟨flow, f, ((t.run as).ingest flow f).1⟩] :=
  log_append t as [.ingest flow f]

@[simp] theorem get?_emptyCollection (flow : Flow) : (∅ : Reassembler).get? flow = none :=
  get?_empty flow

theorem fst_ingest (t : Reassembler) (flow : Flow) (f : Fragment) :
    (t.ingest flow f).1 = (ingestOne flow (t.get? flow) f).1 := rfl

theorem get?_apply (t : Reassembler) (a : Action) (flow : Flow) :
    (t.apply a).get? flow = FlowAction.run flow (t.get? flow) (a.on flow).toList := by
  cases a with
  | ingest other f =>
    by_cases h : other = flow <;> simp [apply, get?_ingest, Action.on, FlowAction.apply, h]
  | remove other =>
    by_cases h : other = flow <;> simp [apply, get?_remove, Action.on, FlowAction.apply, h]
  | filter keep => simp [apply, get?_filter, Action.on, FlowAction.apply]
  | clear => simp [apply, Action.on, FlowAction.apply]

theorem logged?_ofFlow (t : Reassembler) (a : Action) (flow : Flow) :
    (t.logged? a).toList.filter (·.flow = flow) =
      FlowAction.log flow (t.get? flow) (a.on flow).toList := by
  cases a with
  | ingest other f =>
    by_cases h : other = flow
    · subst h
      simp [logged?, Action.on, FlowAction.log, FlowAction.logged?, fst_ingest]
    · simp [logged?, Action.on, FlowAction.log, h]
  | remove other =>
    by_cases h : other = flow <;> simp [logged?, Action.on, FlowAction.log, FlowAction.logged?, h]
  | filter keep => simp [logged?, Action.on, FlowAction.log, FlowAction.logged?]
  | clear => simp [logged?, Action.on, FlowAction.log, FlowAction.logged?]

private theorem filterMap_on_cons (flow : Flow) (a : Action) (as : List Action) :
    (a :: as).filterMap (·.on flow) = (a.on flow).toList ++ as.filterMap (·.on flow) := by
  cases h : a.on flow <;> simp [h]

/-- The partial message of a flow after a run comes from the actions of that flow alone. -/
theorem get?_run (t : Reassembler) (as : List Action) (flow : Flow) :
    (t.run as).get? flow = FlowAction.run flow (t.get? flow) (as.filterMap (·.on flow)) := by
  induction as generalizing t with
  | nil => rfl
  | cons a as ih =>
    rw [run_cons, ih, get?_apply, filterMap_on_cons, FlowAction.run_append]

theorem get?_run_empty (as : List Action) (flow : Flow) :
    ((∅ : Reassembler).run as).get? flow = FlowAction.run flow none (as.filterMap (·.on flow)) := by
  rw [get?_run, get?_emptyCollection]

/-- What the packets of a flow lead to comes from the actions of that flow alone. -/
theorem log_ofFlow (t : Reassembler) (as : List Action) (flow : Flow) :
    (t.log as).filter (·.flow = flow) =
      FlowAction.log flow (t.get? flow) (as.filterMap (·.on flow)) := by
  induction as generalizing t with
  | nil => rfl
  | cons a as ih =>
    rw [log, List.filter_append, logged?_ofFlow, ih, get?_apply, filterMap_on_cons,
      FlowAction.log_append]

theorem log_ingest (t : Reassembler) (flow : Flow) (fs : List Fragment) :
    t.log (fs.map (.ingest flow)) = FlowAction.log flow (t.get? flow) (fs.map .ingest) := by
  induction fs generalizing t with
  | nil => rfl
  | cons f fs ih =>
    have hget : (t.apply (.ingest flow f)).get? flow = (ingestOne flow (t.get? flow) f).2 := by
      rw [apply, get?_ingest, if_pos rfl]
    rw [List.map_cons, log, ih, hget]
    rfl

end Reassembler

end MctpReceiver
