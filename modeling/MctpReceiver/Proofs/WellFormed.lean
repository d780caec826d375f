import MctpReceiver.Proofs.Unbroken

/-!
# The shape of a pending message

Whatever the owner of a reassembler does with it, what is pending on a flow keeps one shape
(`pending_wellFormed`): some fragments, of which only the first can start a message and only the last
ones can end it, no two neighbours claiming the same place; and a summary of them that is true. What
has an end and is still pending lacks its start or a fragment in between.

`WellFormed` is that shape. It holds when a message is begun (`wellFormed_start`) and is kept by each
of the two things that can happen to it: it is touched or gets another fragment.
-/

namespace MctpReceiver

/-! ## What is lost between neighbours -/

/-- The number of fragments lost between the neighbours of a list, judged by their sequence
numbers. -/
def lostIn : List Fragment → Nat
  | [] | [_] => 0
  | f :: g :: fs => f.lostBefore g + lostIn (g :: fs)

theorem lostIn_concat (fs : List Fragment) (f g : Fragment) :
    lostIn (fs ++ [f, g]) = lostIn (fs ++ [f]) + f.lostBefore g := by
  induction fs with
  | nil => simp [lostIn]
  | cons e fs ih =>
    cases fs with
    | nil => simp [lostIn]
    | cons e' fs =>
      show e.lostBefore e' + lostIn (e' :: fs ++ [f, g]) =
        e.lostBefore e' + lostIn (e' :: fs ++ [f]) + _
      rw [ih, Nat.add_assoc]

theorem Fragment.lostBefore_le (f g : Fragment) : f.lostBefore g ≤ 2 := by
  have := Sequence.distanceTo_lt f.header.sequence g.header.sequence
  unfold lostBefore
  omega

theorem lostIn_le (fs : List Fragment) : lostIn fs ≤ 2 * (fs.length - 1) := by
  fun_induction lostIn fs with
  | case1 => simp
  | case2 => simp
  | case3 f g fs ih =>
    have := f.lostBefore_le g
    simp only [List.length_cons] at ih ⊢
    omega

namespace PartialMessage

/-! ## Well-formed messages -/

/-- The partial message consists of the fragments `first :: rest`, and all that it says of them is
true. -/
structure WellFormed (m : PartialMessage) (first : Fragment) (rest : List Fragment) : Prop where
  fragments : m.fragments = first :: rest
  not_single : ∀ f ∈ first :: rest, ¬ (f.header.som = true ∧ f.header.eom = true)
  som_rest : ∀ f ∈ rest, f.header.som = false
  startFrame : m.startFrame = if first.header.som then some first.frame else none
  orphan : m.orphan = !first.header.som
  /-- The ends of message come last, and there is one just if the message says so. -/
  ends : ∃ body tails, first :: rest = body ++ tails ∧ (∀ f ∈ body, f.header.eom = false) ∧
    (∀ f ∈ tails, f.header.eom = true) ∧ (m.hasTail = true ↔ tails ≠ [])
  apart : List.IsChain (fun f g => ¬ (f.header.sequence = g.header.sequence ∧
    f.header.som = g.header.som ∧ f.header.eom = g.header.eom)) (first :: rest)
  missing : m.missing = lostIn (first :: rest)
  not_ready : m.completion ≠ .ready

variable {m : PartialMessage} {first f : Fragment} {rest : List Fragment}

theorem wellFormed_start (hf : f.header.position ≠ .single) : (start f).WellFormed f [] where
  fragments := rfl
  not_single := List.forall_mem_singleton.2 fun h => hf (Header.position_eq_single.2 h)
  som_rest := by simp
  startFrame := rfl
  orphan := rfl
  ends := by
    cases he : f.header.eom with
    | true => exact ⟨[], [f], rfl, by simp, by simpa using he, by simp [start, he]⟩
    | false => exact ⟨[f], [], rfl, by simpa using he, by simp, by simp [start, he]⟩
  apart := List.isChain_singleton f
  missing := rfl
  not_ready := by
    -- An end that is the first fragment has no start before it.
    intro hc
    obtain ⟨he, hs, -⟩ := completion_eq_ready.1 hc
    have hsom : f.header.som = true := by
      by_contra hsom
      exact hs (by simp [start, hsom])
    exact hf (Header.position_eq_single.2 ⟨hsom, he⟩)

/-- The frame seen last and the conflict mark have no part in it. -/
theorem WellFormed.touch (h : m.WellFormed first rest) (frame : FrameId) (conflicted : Bool) :
    { m with lastFrame := frame, conflicted := conflicted }.WellFormed first rest :=
  ⟨h.fragments, h.not_single, h.som_rest, h.startFrame, h.orphan, h.ends, h.apart, h.missing,
    h.not_ready⟩

theorem fragments_eq (m : PartialMessage) : m.fragments = m.earlier.reverse ++ [m.latest] := by
  simp [PartialMessage.fragments]

theorem WellFormed.ends_append (h : m.WellFormed first rest)
    (he : m.hasTail = true → f.header.eom = true) :
    ∃ body tails, first :: (rest ++ [f]) = body ++ tails ∧ (∀ g ∈ body, g.header.eom = false) ∧
      (∀ g ∈ tails, g.header.eom = true) ∧ ((m.append f).hasTail = true ↔ tails ≠ []) := by
  obtain ⟨body, tails, heq, hbody, htails, htail⟩ := h.ends
  rw [← List.cons_append, heq]
  cases heom : f.header.eom with
  | true =>
    exact ⟨body, tails ++ [f], by simp, hbody,
      List.forall_mem_append.2 ⟨htails, List.forall_mem_singleton.2 heom⟩,
      by simp [hasTail_append, heom]⟩
  | false =>
    have hopen : m.hasTail = false := by
      by_contra ht
      simp [he (by simpa using ht)] at heom
    have hnil : tails = [] := by
      by_contra hne
      simp [htail.2 hne] at hopen
    exact ⟨body ++ [f], [], by simp [hnil],
      List.forall_mem_append.2 ⟨hbody, List.forall_mem_singleton.2 heom⟩, by simp,
      by simp [hasTail_append, hopen, heom]⟩

/-- A fragment that starts nothing and repeats nothing may be added: after an end only another end,
and only if the message is not complete with it. -/
theorem WellFormed.append (h : m.WellFormed first rest) (hs : f.header.som = false)
    (hr : f.repeats m.latest = false) (he : m.hasTail = true → f.header.eom = true)
    (hc : (m.append f).completion ≠ .ready) : (m.append f).WellFormed first (rest ++ [f]) where
  fragments := by rw [fragments_append, h.fragments, List.cons_append]
  not_single := by
    rw [← List.cons_append]
    exact List.forall_mem_append.2 ⟨h.not_single, List.forall_mem_singleton.2 (by simp [hs])⟩
  som_rest := List.forall_mem_append.2 ⟨h.som_rest, List.forall_mem_singleton.2 hs⟩
  startFrame := h.startFrame
  orphan := h.orphan
  ends := h.ends_append he
  apart := by
    rw [← List.cons_append]
    refine List.isChain_append.2 ⟨h.apart, List.isChain_singleton f, ?_⟩
    intro x hx y hy
    rw [← h.fragments, fragments_eq, List.getLast?_concat, Option.mem_some_iff] at hx
    rw [List.head?_cons, Option.mem_some_iff] at hy
    rw [← hx, ← hy, ← Fragment.repeats_iff, Fragment.repeats_comm, hr]
    exact Bool.false_ne_true
  missing := by
    show m.missing + m.latest.lostBefore f = _
    rw [h.missing, ← List.cons_append, ← h.fragments, fragments_eq, List.append_assoc,
      List.singleton_append, lostIn_concat]
  not_ready := hc

/-- What has an end and is pending lacks its start or a fragment in between. -/
theorem WellFormed.orphan_or_missing (h : m.WellFormed first rest) (ht : m.hasTail = true) :
    m.orphan = true ∨ 0 < m.missing := by
  by_contra hno
  rw [not_or] at hno
  refine h.not_ready (completion_eq_ready.2 ⟨ht, ?_, by omega⟩)
  have hsom : first.header.som = true := by simpa [h.orphan] using hno.1
  rw [h.startFrame, if_pos hsom]
  exact Option.some_ne_none _

theorem WellFormed.missing_le (h : m.WellFormed first rest) : m.missing ≤ 2 * (m.count - 1) := by
  rw [h.missing, ← length_fragments, h.fragments]
  exact lostIn_le _

end PartialMessage

/-! ## Runs -/

/-- A packet leaves a well-formed message behind. -/
theorem Step.wellFormed {flow : Flow} {f : Fragment} {pending : Option PartialMessage}
    {i : Ingestion} {m : PartialMessage}
    (h : ∀ m', pending = some m' → ∃ first rest, m'.WellFormed first rest)
    (hstep : Step flow f pending i (some m)) : ∃ first rest, m.WellFormed first rest := by
  cases hstep with
  | single hf => exact h m rfl
  | opened hf | orphaned hf | orphanedEnd hf | restarted hf =>
    exact ⟨f, [], PartialMessage.wellFormed_start (by simp [hf])⟩
  | @repeated m' | @beyond m' =>
    obtain ⟨first, rest, hw⟩ := h m' rfl
    exact ⟨first, rest, hw.touch f.frame m'.conflicted⟩
  | @conflicting m' hf hr hp =>
    obtain ⟨first, rest, hw⟩ := h m' rfl
    exact ⟨first, rest, hw.touch f.frame true⟩
  | @continued m' hf hr ht =>
    obtain ⟨first, rest, hw⟩ := h m' rfl
    obtain ⟨hs, he⟩ := Header.position_eq_middle.1 hf
    refine ⟨first, rest ++ [f], hw.append hs hr (by simp [ht]) fun hc => ?_⟩
    have htail := (PartialMessage.completion_eq_ready.1 hc).1
    simp [PartialMessage.hasTail_append, ht, he] at htail
  | @failed m' missing hf hr hc =>
    obtain ⟨first, rest, hw⟩ := h m' rfl
    obtain ⟨hs, he⟩ := Header.position_eq_last.1 hf
    exact ⟨first, rest ++ [f], hw.append hs hr (fun _ => he) (by simp [hc])⟩

/-- **The shape of what is pending.** After any run from the empty reassembler every partial message
is well-formed. Two fragments at most are counted as lost between neighbours, and a message that has
an end lacks its start or a fragment in between. -/
theorem pending_wellFormed (as : List Action) (flow : Flow) (m : PartialMessage)
    (h : ((∅ : Reassembler).run as).get? flow = some m) :
    (∃ first rest, m.WellFormed first rest) ∧ m.missing ≤ 2 * (m.count - 1) ∧
      (m.hasTail = true → m.orphan = true ∨ 0 < m.missing) := by
  obtain ⟨first, rest, hw⟩ := Reassembler.pending_of_run
    (P := fun m => ∃ first rest, m.WellFormed first rest)
    (fun _ _ _ _ hprev hstep => Step.wellFormed hprev hstep) as h
  exact ⟨⟨first, rest, hw⟩, hw.missing_le, hw.orphan_or_missing⟩

/-- A message that two ends have not completed, for two fragments were lost before the first of
them. -/
theorem two_tails_wellFormed :
    ∃ first rest, PartialMessage.WellFormed
      { latest := ⟨.ofFlags .one ⟨8, 16⟩ 0x4b, [0x03], 2⟩
        earlier := [⟨.ofFlags .one ⟨8, 16⟩ 0x7b, [0x02], 1⟩, ⟨.ofFlags .one ⟨8, 16⟩ 0x8b, [0x01], 0⟩]
        missing := 2, hasTail := true, startFrame := some 0, lastFrame := 2, orphan := false
        conflicted := false } first rest := by
  refine (pending_wellFormed
    [.ingest ⟨⟨8, 16⟩, ⟨true, 3⟩⟩ ⟨.ofFlags .one ⟨8, 16⟩ 0x8b, [0x01], 0⟩,
      .ingest ⟨⟨8, 16⟩, ⟨true, 3⟩⟩ ⟨.ofFlags .one ⟨8, 16⟩ 0x7b, [0x02], 1⟩,
      .ingest ⟨⟨8, 16⟩, ⟨true, 3⟩⟩ ⟨.ofFlags .one ⟨8, 16⟩ 0x4b, [0x03], 2⟩]
    ⟨⟨8, 16⟩, ⟨true, 3⟩⟩ _ ?_).1
  rw [Reassembler.get?_run_empty]
  decide

end MctpReceiver
