import MctpReceiver.Proofs.Stalled

/-!
# Retransmissions

A fragment that is sent again, before the next fragment of its flow, changes nothing but the conflict
mark. `copies_change_nothing` compares a run with the same run to which copies were added: no copy
completes a message, every other packet leads to the same outcome, and a completed message is the
same up to its conflict mark, or altogether if the copies carry the payloads of what they repeat.

The two runs do not keep the same partial messages. A copy of the end that completes a message finds
nothing pending and opens a partial message without a start, and from then on the run with the copies
drops fragments that the other one keeps. `Shadows` says how far they can drift apart: the flow is
stalled in both runs, or it has the same partial message in both but for the frame seen last and the
conflict mark, and repetitions of the last fragment are dropped.
-/

namespace MctpReceiver

/-! ## Runs with copies -/

/-- A packet of a run, marked if it was added to the run as a copy. -/
structure Arrival where
  flow : Flow
  fragment : Fragment
  copy : Bool
  deriving DecidableEq, Repr

/-- The outcome with the conflict mark taken off its message. -/
def Outcome.unmarked : Outcome → Outcome
  | .completed message => .completed { message with conflicted := false }
  | .buffered => .buffered
  | .single payload => .single payload

namespace Arrival

def action (a : Arrival) : Action := .ingest a.flow a.fragment

/-- The packets that are not copies. -/
def originals (l : List Arrival) : List Arrival := l.filter fun a => !a.copy

/-- The last fragment on a flow that is not a copy. -/
def lastFragment? (flow : Flow) (l : List Arrival) : Option Fragment :=
  ((originals l).filter fun a => a.flow = flow && a.fragment.header.isFragment).getLast?.map
    (·.fragment)

/-- Every copy claims the place of the fragment before it on its flow. -/
def CopiesRepeat (l : List Arrival) : Prop :=
  ∀ before a after, l = before ++ a :: after → a.copy = true →
    ∃ p, lastFragment? a.flow before = some p ∧ a.fragment.repeats p = true

/-- Every copy carries the payload of the fragment before it on its flow. -/
def CopiesVerbatim (l : List Arrival) : Prop :=
  ∀ before a after, l = before ++ a :: after → a.copy = true →
    ∀ p, lastFragment? a.flow before = some p → a.fragment.payload = p.payload

/-- What a packet leads to behind others. -/
def outcomeAfter (a : Arrival) (l : List Arrival) : Outcome :=
  (((∅ : Reassembler).run (l.map action)).ingest a.flow a.fragment).1.outcome

variable {l : List Arrival} {a : Arrival}

theorem originals_concat_copy (ha : a.copy = true) : originals (l ++ [a]) = originals l := by
  simp [originals, ha]

theorem originals_concat (ha : a.copy = false) : originals (l ++ [a]) = originals l ++ [a] := by
  simp [originals, ha]

theorem lastFragment?_concat_copy (ha : a.copy = true) (flow : Flow) :
    lastFragment? flow (l ++ [a]) = lastFragment? flow l := by
  unfold lastFragment?
  rw [originals_concat_copy ha]

theorem lastFragment?_concat (ha : a.copy = false) (flow : Flow) :
    lastFragment? flow (l ++ [a]) =
      if a.flow = flow ∧ a.fragment.header.isFragment = true then some a.fragment
      else lastFragment? flow l := by
  unfold lastFragment?
  rw [originals_concat ha, List.filter_append]
  split
  · next h => simp [h.1, h.2]
  · next h =>
    rw [List.filter_cons_of_neg (by simpa using h), List.filter_nil, List.append_nil]

theorem CopiesRepeat.of_append {xs ys : List Arrival} (h : CopiesRepeat (xs ++ ys)) :
    CopiesRepeat xs := by
  intro before a after hxs
  exact h before a (after ++ ys) (by rw [hxs, List.append_assoc, List.cons_append])

theorem CopiesVerbatim.of_append {xs ys : List Arrival} (h : CopiesVerbatim (xs ++ ys)) :
    CopiesVerbatim xs := by
  intro before a after hxs
  exact h before a (after ++ ys) (by rw [hxs, List.append_assoc, List.cons_append])

end Arrival

/-! ## Repetitions -/

namespace Fragment

variable {c p : Fragment}

theorem repeats_congr (h : c.repeats p = true) (q : Fragment) : c.repeats q = p.repeats q := by
  obtain ⟨hq, hs, he⟩ := repeats_iff.1 h
  unfold repeats
  rw [hq, hs, he]

theorem position_eq_of_repeats (h : c.repeats p = true) :
    c.header.position = p.header.position := by
  obtain ⟨-, hs, he⟩ := repeats_iff.1 h
  unfold Header.position
  rw [hs, he]

end Fragment

namespace PartialMessage

/-- Two messages keep the same fragments, and differ in the frame seen last and in the conflict mark
at most; with `exact`, in the frame alone. -/
def Alike (exact : Prop) (m m' : PartialMessage) : Prop :=
  ∃ frame conflicted, m' = { m with lastFrame := frame, conflicted := conflicted } ∧
    (exact → conflicted = m.conflicted)

/-- What repeats the fragment `p` is dropped: it repeats the latest fragment of the message, or lies
beyond its end. With `exact`, a repetition that has the payload of `p` leaves no new mark. -/
def Absorbs (exact : Prop) (m : PartialMessage) (p : Fragment) : Prop :=
  (p.header.position ≠ .single ∧ p.repeats m.latest = true ∧
      (exact → p.payload = m.latest.payload ∨ m.conflicted = true)) ∨
    (p.header.position = .middle ∧ p.repeats m.latest = false ∧ m.hasTail = true)

variable {exact : Prop} {m m' : PartialMessage} {c p : Fragment}

theorem Alike.refl (exact : Prop) (m : PartialMessage) : m.Alike exact m := ⟨_, _, rfl, fun _ => rfl⟩

theorem absorbs_of_latest (h : m.latest = p) (hp : p.header.position ≠ .single) :
    m.Absorbs exact p := by
  left
  refine ⟨hp, ?_, fun _ => Or.inl ?_⟩
  · rw [h, Fragment.repeats_self]
  · rw [h]

/-- A copy of an absorbed fragment is dropped, and with the same payload it leaves no mark. -/
theorem Absorbs.step_copy (flow : Flow) (h : m.Absorbs exact p) (hm : m.Alike exact m')
    (hc : c.repeats p = true) (hpayload : exact → c.payload = p.payload) :
    ∃ anomalies m'', Step flow c (some m') ⟨.buffered, anomalies⟩ (some m'') ∧
      m.Alike exact m'' := by
  have hpos := Fragment.position_eq_of_repeats hc
  obtain ⟨frame, conflicted, rfl, hmark⟩ := hm
  rcases h with ⟨hp, hr, hsame⟩ | ⟨hp, hr, ht⟩
  · rw [← Fragment.repeats_congr hc] at hr
    rw [← hpos] at hp
    by_cases heq : c.payload = m.latest.payload
    · exact ⟨_, _, .repeated hp hr heq, _, _, rfl, hmark⟩
    · refine ⟨_, _, .conflicting hp hr heq, _, _, rfl, fun hexact => ?_⟩
      rcases hsame hexact with hlatest | hmarked
      · exact absurd ((hpayload hexact).trans hlatest) heq
      · exact hmarked.symm
  · rw [← Fragment.repeats_congr hc] at hr
    rw [← hpos] at hp
    exact ⟨_, _, .beyond hp hr ht, _, _, rfl, hmark⟩

end PartialMessage

/-! ## One flow in two runs -/

/-- What is pending on a flow in a run, and in the run with copies added, where `last` is the last
fragment on the flow that is not a copy. -/
inductive Shadows (exact : Prop) (last : Option Fragment) :
    Option PartialMessage → Option PartialMessage → Prop
  | stalled {pending pending' : Option PartialMessage} (h : Stalled pending)
      (h' : Stalled pending') (hlast : ∀ p, last = some p → p.header.som = false) :
      Shadows exact last pending pending'
  | alike {m m' : PartialMessage} {p : Fragment} (hm : m.Alike exact m') (hlast : last = some p)
      (habsorbs : m.Absorbs exact p) : Shadows exact last (some m) (some m')

namespace Shadows

variable {exact : Prop} {flow : Flow} {last : Option Fragment} {c p : Fragment}
  {pending pending' next next' : Option PartialMessage} {i i' : Ingestion}
  {m m' : PartialMessage}

/-- The same latest fragment is kept in both runs. -/
theorem of_latest (hm : m.Alike exact m') (hlatest : m.latest = p)
    (hp : p.header.position ≠ .single) : Shadows exact (some p) (some m) (some m') :=
  .alike hm rfl (PartialMessage.absorbs_of_latest hlatest hp)

/-- A copy completes nothing and is not noticed. -/
theorem step_copy (h : Shadows exact last pending pending') (hlast : last = some p)
    (hc : c.repeats p = true) (hpayload : exact → c.payload = p.payload)
    (hs : Step flow c pending' i' next') :
    i'.outcome = .buffered ∧ Shadows exact last pending next' := by
  cases h with
  | stalled h h' hsom =>
    have hcsom : c.header.som = false := (Fragment.repeats_iff.1 hc).2.1.trans (hsom p hlast)
    obtain ⟨ho, hn⟩ := h'.step hcsom hs
    exact ⟨ho, .stalled h hn hsom⟩
  | alike hm hlast' habsorbs =>
    obtain rfl : p = _ := Option.some.inj (hlast.symm.trans hlast')
    obtain ⟨anomalies, m'', hcopy, hm'⟩ := habsorbs.step_copy flow hm hc hpayload
    obtain ⟨rfl, rfl⟩ := hs.unique hcopy
    exact ⟨rfl, .alike hm' hlast habsorbs⟩

/-- Messages that are alike take in the next fragment alike. -/
theorem step_alike (hm : m.Alike exact m') (hp : p.header.position ≠ .single)
    (hs : Step flow p (some m) i next) (hs' : Step flow p (some m') i' next') :
    i.outcome.unmarked = i'.outcome.unmarked ∧ (exact → i.outcome = i'.outcome) ∧
      Shadows exact (some p) next next' := by
  obtain ⟨frame, conflicted, rfl, hmark⟩ := hm
  cases hs with
  | single hf => exact absurd hf hp
  | repeated hf hr hq =>
    obtain ⟨rfl, rfl⟩ := hs'.unique (.repeated hf hr hq)
    exact ⟨rfl, fun _ => rfl,
      .alike ⟨_, _, rfl, hmark⟩ rfl (Or.inl ⟨hp, hr, fun _ => Or.inl hq⟩)⟩
  | conflicting hf hr hq =>
    obtain ⟨rfl, rfl⟩ := hs'.unique (.conflicting hf hr hq)
    exact ⟨rfl, fun _ => rfl,
      .alike ⟨_, _, rfl, fun _ => rfl⟩ rfl (Or.inl ⟨hp, hr, fun _ => Or.inr rfl⟩)⟩
  | restarted hf hr =>
    obtain ⟨rfl, rfl⟩ := hs'.unique (.restarted hf hr)
    exact ⟨rfl, fun _ => rfl, .of_latest (.refl _ _) rfl hp⟩
  | beyond hf hr ht =>
    obtain ⟨rfl, rfl⟩ := hs'.unique (.beyond hf hr ht)
    exact ⟨rfl, fun _ => rfl, .alike ⟨_, _, rfl, hmark⟩ rfl (Or.inr ⟨hf, hr, ht⟩)⟩
  | continued hf hr ht =>
    obtain ⟨rfl, rfl⟩ := hs'.unique (.continued hf hr ht)
    exact ⟨rfl, fun _ => rfl, .of_latest ⟨_, _, rfl, hmark⟩ rfl hp⟩
  | completed hf hr hc =>
    obtain ⟨rfl, rfl⟩ := hs'.unique (.completed hf hr hc)
    refine ⟨rfl, fun hexact => ?_, .stalled stalled_none stalled_none ?_⟩
    · rw [hmark hexact]
      rfl
    · rintro _ ⟨⟩
      exact (Header.position_eq_last.1 hf).1
  | failed hf hr hc =>
    obtain ⟨rfl, rfl⟩ := hs'.unique (.failed hf hr hc)
    exact ⟨rfl, fun _ => rfl, .of_latest ⟨_, _, rfl, hmark⟩ rfl hp⟩

/-- A fragment that is not a copy leads to the same in both runs. -/
theorem step (h : Shadows exact last pending pending') (hp : p.header.position ≠ .single)
    (hs : Step flow p pending i next) (hs' : Step flow p pending' i' next') :
    i.outcome.unmarked = i'.outcome.unmarked ∧ (exact → i.outcome = i'.outcome) ∧
      Shadows exact (some p) next next' := by
  cases h with
  | stalled h h' hsom =>
    by_cases hfirst : p.header.position = .first
    · obtain ⟨rfl, rfl⟩ := h.start hfirst hs
      obtain ⟨rfl, rfl⟩ := h'.start hfirst hs'
      exact ⟨rfl, fun _ => rfl, .of_latest (.refl _ _) rfl hp⟩
    · have hpsom : p.header.som = false := Header.som_eq_false hp hfirst
      obtain ⟨ho, hn⟩ := h.step hpsom hs
      obtain ⟨ho', hn'⟩ := h'.step hpsom hs'
      refine ⟨by rw [ho, ho'], fun _ => ho.trans ho'.symm, .stalled hn hn' ?_⟩
      rintro _ ⟨⟩
      exact hpsom
  | alike hm hlast habsorbs => exact step_alike hm hp hs hs'

/-- A whole message passes by in both runs. -/
theorem step_single (h : Shadows exact last pending pending') (hp : p.header.position = .single)
    (hs : Step flow p pending i next) (hs' : Step flow p pending' i' next') :
    i.outcome = i'.outcome ∧ Shadows exact last next next' := by
  obtain ⟨rfl, rfl⟩ := hs.of_single hp
  obtain ⟨rfl, rfl⟩ := hs'.of_single hp
  exact ⟨rfl, h⟩

end Shadows

/-! ## Two runs -/

namespace Arrival

variable {exact : Prop} {l : List Arrival} {a : Arrival}

/-- The two runs behind the packets `l`, as a flow sees them. -/
def InStep (exact : Prop) (l : List Arrival) (flow : Flow) : Prop :=
  Shadows exact (lastFragment? flow l)
    (((∅ : Reassembler).run ((originals l).map action)).get? flow)
    (((∅ : Reassembler).run (l.map action)).get? flow)

theorem get?_run_concat (t : Reassembler) (l : List Arrival) (a : Arrival) (flow : Flow) :
    (t.run ((l ++ [a]).map action)).get? flow =
      if a.flow = flow then
        (ingestOne a.flow ((t.run (l.map action)).get? a.flow) a.fragment).2
      else (t.run (l.map action)).get? flow := by
  rw [List.map_append, List.map_singleton, Reassembler.run_concat]
  exact Reassembler.get?_ingest _ _ _ _

/-- A copy is not noticed, on its flow and on the others. -/
theorem inStep_concat_copy (h : ∀ flow, InStep exact l flow) (ha : a.copy = true) {p : Fragment}
    (hlast : lastFragment? a.flow l = some p) (hc : a.fragment.repeats p = true)
    (hpayload : exact → a.fragment.payload = p.payload) :
    a.outcomeAfter l = .buffered ∧ ∀ flow, InStep exact (l ++ [a]) flow := by
  obtain ⟨houtcome, hnext⟩ :=
    (h a.flow).step_copy hlast hc hpayload (step_ingestOne a.flow _ _)
  refine ⟨houtcome, fun flow => ?_⟩
  unfold InStep
  rw [lastFragment?_concat_copy ha, originals_concat_copy ha, get?_run_concat]
  split
  · next hflow => rw [← hflow]; exact hnext
  · exact h flow

/-- What is not a copy leads to the same in both runs. -/
theorem inStep_concat (h : ∀ flow, InStep exact l flow) (ha : a.copy = false) :
    (a.outcomeAfter l).unmarked = (a.outcomeAfter (originals l)).unmarked ∧
      (exact → a.outcomeAfter l = a.outcomeAfter (originals l)) ∧
      ∀ flow, InStep exact (l ++ [a]) flow := by
  have hs := step_ingestOne a.flow a.fragment
    (((∅ : Reassembler).run ((originals l).map action)).get? a.flow)
  have hs' := step_ingestOne a.flow a.fragment (((∅ : Reassembler).run (l.map action)).get? a.flow)
  by_cases hp : a.fragment.header.position = .single
  · obtain ⟨houtcome, hnext⟩ := (h a.flow).step_single hp hs hs'
    refine ⟨(congrArg Outcome.unmarked houtcome).symm, fun _ => houtcome.symm, fun flow => ?_⟩
    unfold InStep
    rw [lastFragment?_concat ha, originals_concat ha, get?_run_concat, get?_run_concat,
      if_neg (by simp [Header.isFragment_eq_false.2 hp])]
    split
    · next hflow => rw [← hflow]; exact hnext
    · exact h flow
  · obtain ⟨hunmarked, hsame, hnext⟩ := (h a.flow).step hp hs hs'
    refine ⟨hunmarked.symm, fun hexact => (hsame hexact).symm, fun flow => ?_⟩
    unfold InStep
    rw [lastFragment?_concat ha, originals_concat ha, get?_run_concat, get?_run_concat]
    by_cases hflow : a.flow = flow
    · rw [if_pos hflow, if_pos hflow, if_pos ⟨hflow, (Header.isFragment_iff _).2 hp⟩]
      exact hnext
    · rw [if_neg hflow, if_neg hflow, if_neg fun hcon => hflow hcon.1]
      exact h flow

/-- Copies keep the two runs in step. -/
theorem inStep_of_copiesRepeat (l : List Arrival) (h : CopiesRepeat l)
    (hexact : exact → CopiesVerbatim l) (flow : Flow) : InStep exact l flow := by
  induction l using List.reverseRecOn generalizing flow with
  | nil =>
    have hnone : Stalled ((∅ : Reassembler).get? flow) := by
      rw [Reassembler.get?_emptyCollection]
      exact stalled_none
    exact .stalled hnone hnone (by simp [lastFragment?, originals])
  | append_singleton l a ih =>
    have ih := fun flow => ih h.of_append (fun he => (hexact he).of_append) flow
    cases ha : a.copy with
    | true =>
      obtain ⟨p, hlast, hc⟩ := h l a [] rfl ha
      exact (inStep_concat_copy ih ha hlast hc fun he => hexact he l a [] rfl ha p hlast).2 flow
    | false => exact (inStep_concat ih ha).2.2 flow

end Arrival

open Arrival in
/-- **Retransmission.** Copies are added to a run, each behind a fragment and before the next one of
its flow, with the same sequence number and flags. Then no copy completes a message or is taken for
one, and every other packet leads to what it led to without them, but for the conflict mark of the
message; and for that as well if every copy has the payload of the fragment that it follows. -/
theorem copies_change_nothing (l : List Arrival) (h : CopiesRepeat l) (before after : List Arrival)
    (a : Arrival) (hl : l = before ++ a :: after) :
    (a.copy = true → a.outcomeAfter before = .buffered) ∧
      (a.copy = false →
        (a.outcomeAfter before).unmarked = (a.outcomeAfter (originals before)).unmarked ∧
        (CopiesVerbatim l → a.outcomeAfter before = a.outcomeAfter (originals before))) := by
  have hbefore : CopiesRepeat before := by
    rw [hl] at h
    exact h.of_append
  have hverbatim : CopiesVerbatim l → CopiesVerbatim before := by
    intro hv
    rw [hl] at hv
    exact hv.of_append
  have hstep := inStep_of_copiesRepeat before hbefore hverbatim
  constructor
  · intro ha
    obtain ⟨p, hlast, hc⟩ := h before a after hl ha
    exact (inStep_concat_copy hstep ha hlast hc fun hv => hv before a after hl ha p hlast).1
  · intro ha
    obtain ⟨hunmarked, hsame, -⟩ := inStep_concat hstep ha
    exact ⟨hunmarked, hsame⟩

/-- A message in two fragments. The first is sent again with another payload, the second as it was. -/
def echoed : List Arrival :=
  [⟨⟨⟨8, 16⟩, ⟨true, 3⟩⟩, ⟨.ofFlags .one ⟨8, 16⟩ 0x8b, [0x01], 0⟩, false⟩,
    ⟨⟨⟨8, 16⟩, ⟨true, 3⟩⟩, ⟨.ofFlags .one ⟨8, 16⟩ 0x8b, [0x07], 1⟩, true⟩,
    ⟨⟨⟨8, 16⟩, ⟨true, 3⟩⟩, ⟨.ofFlags .one ⟨8, 16⟩ 0x5b, [0x02], 2⟩, false⟩,
    ⟨⟨⟨8, 16⟩, ⟨true, 3⟩⟩, ⟨.ofFlags .one ⟨8, 16⟩ 0x5b, [0x02], 3⟩, true⟩]

theorem copiesRepeat_echoed : Arrival.CopiesRepeat echoed := by
  intro before a after h ha
  match before with
  | [] => cases h; cases ha
  | [_] => cases h; exact ⟨_, rfl, by decide⟩
  | [_, _] => cases h; cases ha
  | [_, _, _] => cases h; exact ⟨_, rfl, by decide⟩
  | _ :: _ :: _ :: _ :: _ => simp [echoed] at h

theorem echoed_outcomes :
    (Arrival.outcomeAfter ⟨⟨⟨8, 16⟩, ⟨true, 3⟩⟩, ⟨.ofFlags .one ⟨8, 16⟩ 0x5b, [0x02], 2⟩, false⟩
        (echoed.take 2)).unmarked =
      .completed ⟨⟨⟨8, 16⟩, ⟨true, 3⟩⟩, [0x01, 0x02], 0, 2, [0, 2], false⟩ ∧
    Arrival.outcomeAfter ⟨⟨⟨8, 16⟩, ⟨true, 3⟩⟩, ⟨.ofFlags .one ⟨8, 16⟩ 0x5b, [0x02], 3⟩, true⟩
        (echoed.take 3) = .buffered := by
  obtain ⟨-, hend⟩ := copies_change_nothing echoed copiesRepeat_echoed (echoed.take 2)
    (echoed.drop 3) _ rfl
  obtain ⟨hcopy, -⟩ := copies_change_nothing echoed copiesRepeat_echoed (echoed.take 3) [] _ rfl
  refine ⟨(hend rfl).1.trans ?_, hcopy rfl⟩
  unfold Arrival.outcomeAfter
  rw [Reassembler.fst_ingest, Reassembler.get?_run, Reassembler.get?_emptyCollection]
  decide

end MctpReceiver
