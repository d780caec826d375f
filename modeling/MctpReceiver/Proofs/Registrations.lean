import MctpReceiver.Proofs.Listing
import Mathlib.Data.List.Basic
import Mathlib.Data.List.Induction

/-!
# Handlers as they were registered

A handler table is what was done with it. After any sequence of registrations, removals, queries and
deliveries, a code has a handler just if it was registered for the code and not taken away since, and
then the handler that was registered last (`get?_run`). `table_follows_history` says so of all that
the table answers: what it gives back, whom it calls, and what it lists.

Codes are all that counts. Types of one code share one handler, and a handler for a code of eight bits
is never called, since the type of a message has seven.
-/

namespace MctpReceiver

namespace HandlerTable

/-- What is done with a handler table. -/
inductive Use (H : Type) where
  | register (type : MessageType) (handler : H)
  | unregister (type : MessageType)
  /-- It is asked whether the message type has a handler. -/
  | query (type : MessageType)
  /-- It is handed a message, given with the byte that tells its type. -/
  | deliver (message : List UInt8) (frame : FrameId) (origin : Origin)

variable {H : Type}

namespace Use

/-- A handler is registered for the code. -/
def Registers (code : UInt8) : Use H → Prop
  | register type _ => type.code = code
  | unregister _ | query _ | deliver _ _ _ => False

/-- The handler of the code is taken away. -/
def Unregisters (code : UInt8) : Use H → Prop
  | unregister type => type.code = code
  | register _ _ | query _ | deliver _ _ _ => False

instance (code : UInt8) : (u : Use H) → Decidable (u.Registers code)
  | .register type _ => inferInstanceAs (Decidable (type.code = code))
  | .unregister _ | .query _ | .deliver _ _ _ => inferInstanceAs (Decidable False)

instance (code : UInt8) : (u : Use H) → Decidable (u.Unregisters code)
  | .unregister type => inferInstanceAs (Decidable (type.code = code))
  | .register _ _ | .query _ | .deliver _ _ _ => inferInstanceAs (Decidable False)

end Use

/-- The table after a use. -/
def apply (t : HandlerTable H) : Use H → HandlerTable H
  | .register type handler => (t.register type handler).2
  | .unregister type => (t.unregister type).2
  | .query _ => t
  | .deliver message frame origin => (Dispatcher.deliver t message frame origin).2

/-- The table after a run. -/
def run (t : HandlerTable H) (us : List (Use H)) : HandlerTable H := us.foldl apply t

theorem run_concat (t : HandlerTable H) (us : List (Use H)) (u : Use H) :
    t.run (us ++ [u]) = (t.run us).apply u := List.foldl_append

/-! ## The history of a code -/

/-- Some registration for the code has not been undone since. -/
def Registered (us : List (Use H)) (code : UInt8) : Prop :=
  ∃ before type handler after, us = before ++ .register type handler :: after ∧
    type.code = code ∧ ∀ u ∈ after, ¬ u.Unregisters code

/-- The handler comes from the latest registration for the code, and that has not been undone
since. -/
def Effective (us : List (Use H)) (code : UInt8) (handler : H) : Prop :=
  ∃ before type after, us = before ++ .register type handler :: after ∧
    type.code = code ∧ ∀ u ∈ after, ¬ u.Unregisters code ∧ ¬ u.Registers code

section History

variable {us : List (Use H)} {u : Use H} {code : UInt8} {handler : H}

theorem not_effective_nil : ¬ Effective ([] : List (Use H)) code handler := by
  rintro ⟨before, type, after, heq, -⟩
  simp at heq

/-- A later use is the registration in question or leaves the history of the code as it is. -/
theorem effective_concat : Effective (us ++ [u]) code handler ↔
    (∃ type, u = .register type handler ∧ type.code = code) ∨
      Effective us code handler ∧ ¬ u.Unregisters code ∧ ¬ u.Registers code := by
  constructor
  · rintro ⟨before, type, after, heq, hcode, hafter⟩
    rcases List.eq_nil_or_concat after with rfl | ⟨after, u', rfl⟩
    · obtain ⟨-, rfl⟩ := List.append_singleton_inj.1 heq
      exact Or.inl ⟨type, rfl, hcode⟩
    · rw [List.concat_eq_append] at heq hafter
      rw [← List.cons_append, ← List.append_assoc] at heq
      obtain ⟨rfl, rfl⟩ := List.append_singleton_inj.1 heq
      refine Or.inr ⟨⟨before, type, after, rfl, hcode, fun u hu => ?_⟩, ?_⟩
      · exact hafter u (List.mem_append_left _ hu)
      · exact hafter u (by simp)
  · rintro (⟨type, rfl, hcode⟩ | ⟨⟨before, type, after, rfl, hcode, hafter⟩, hu⟩)
    · exact ⟨us, type, [], rfl, hcode, by simp⟩
    · refine ⟨before, type, after ++ [u], by simp, hcode, fun u' hu' => ?_⟩
      rcases List.mem_append.1 hu' with hu' | hu'
      · exact hafter u' hu'
      · rwa [List.mem_singleton.1 hu']

/-- Of the registrations that have not been undone there is a latest one. -/
theorem registered_iff : Registered us code ↔ ∃ handler, Effective us code handler := by
  constructor
  · rintro ⟨before, type, handler, after, rfl, hcode, hafter⟩
    induction after using List.reverseRecOn with
    | nil => exact ⟨handler, before, type, [], rfl, hcode, by simp⟩
    | append_singleton after u ih =>
      obtain ⟨handler', heffective⟩ := ih fun u' hu' => hafter u' (List.mem_append_left _ hu')
      rw [← List.cons_append, ← List.append_assoc]
      by_cases hr : u.Registers code
      · cases u with
        | register type' handler'' => exact ⟨handler'', effective_concat.2 (Or.inl ⟨type', rfl, hr⟩)⟩
        | unregister | query | deliver => exact hr.elim
      · exact ⟨handler', effective_concat.2 (Or.inr ⟨heffective, hafter u (by simp), hr⟩)⟩
  · rintro ⟨handler, before, type, after, rfl, hcode, hafter⟩
    exact ⟨before, type, handler, after, rfl, hcode, fun u hu => (hafter u hu).1⟩

end History

/-! ## Deliveries -/

section Deliver

variable (t : HandlerTable H) (byte : UInt8) (payload : List UInt8) (frame : FrameId)
  (origin : Origin)

/-- The type of a message is read from the low seven bits of its first byte, and the handler of that
type is called if there is one. -/
theorem deliver_cons : Dispatcher.deliver t (byte :: payload) frame origin =
    match t.get? (.ofCode (byte &&& 0x7f)) with
    | none => (.unrecognized (.ofCode (byte &&& 0x7f)), t)
    | some handler => (.handled (.ofCode (byte &&& 0x7f)),
        { t with calls := t.calls.push ⟨handler, payload, frame, origin⟩ }) := by
  show Dispatcher.deliver t (byte :: payload) frame origin =
    match t.get? (.ofTypeByte byte) with
    | none => (.unrecognized (.ofTypeByte byte), t)
    | some handler => (.handled (.ofTypeByte byte),
        { t with calls := t.calls.push ⟨handler, payload, frame, origin⟩ })
  unfold Dispatcher.deliver Delivery.ofMessage? Dispatcher.dispatch instDispatcher
  cases h : t.get? (.ofTypeByte byte) <;> simp [h]

theorem handlers_deliver (message : List UInt8) :
    (Dispatcher.deliver t message frame origin).2.handlers = t.handlers := by
  cases message with
  | nil => rfl
  | cons byte payload =>
    rw [deliver_cons]
    cases t.get? (.ofCode (byte &&& 0x7f)) <;> rfl

/-- The type of a message has seven bits. -/
theorem masked_lt : byte &&& 0x7f < 0x80 := by
  rw [UInt8.lt_iff_toNat_lt, UInt8.toNat_and]
  exact Nat.lt_of_le_of_lt Nat.and_le_right (by decide)

end Deliver

/-! ## Runs -/

section Run

variable {us : List (Use H)} {u : Use H} {handler : H}

/-- What a use does to the handler of a code. -/
theorem get?_apply (t : HandlerTable H) (type : MessageType) :
    (t.apply u).get? type = some handler ↔
      (∃ type', u = .register type' handler ∧ type'.code = type.code) ∨
        t.get? type = some handler ∧ ¬ u.Unregisters type.code ∧ ¬ u.Registers type.code := by
  cases u with
  | register type' handler' =>
    show (t.register type' handler').2.get? type = some handler ↔ _
    rw [get?_register]
    by_cases h : type'.code = type.code <;> simp [h, Use.Registers, Use.Unregisters]
  | unregister type' =>
    show (t.unregister type').2.get? type = some handler ↔ _
    rw [get?_unregister]
    by_cases h : type'.code = type.code <;> simp [h, Use.Registers, Use.Unregisters]
  | query type' => simp [apply, Use.Registers, Use.Unregisters]
  | deliver message frame origin =>
    show (Dispatcher.deliver t message frame origin).2.handlers[type.code]? = some handler ↔ _
    rw [handlers_deliver]
    simp [get?, Use.Registers, Use.Unregisters]

/-- After a run from the empty table, a type has the handler that is in effect for its code. -/
theorem get?_run (us : List (Use H)) (type : MessageType) (handler : H) :
    ((∅ : HandlerTable H).run us).get? type = some handler ↔ Effective us type.code handler := by
  induction us using List.reverseRecOn with
  | nil =>
    have hnone : ((∅ : HandlerTable H).run []).get? type = none := by
      show (∅ : Std.HashMap UInt8 H)[type.code]? = none
      simp
    simp [hnone, not_effective_nil]
  | append_singleton us u ih => rw [run_concat, get?_apply, effective_concat, ih]

theorem isRegistered_run (us : List (Use H)) (type : MessageType) :
    ((∅ : HandlerTable H).run us).isRegistered type = true ↔ Registered us type.code := by
  rw [isRegistered_eq, registered_iff, Option.isSome_iff_exists]
  exact exists_congr fun handler => get?_run us type handler

/-- Every call was made for a message of the run, to the handler then in effect for its code. -/
theorem exists_of_mem_calls {call : Call H} (h : call ∈ ((∅ : HandlerTable H).run us).calls) :
    ∃ before byte after,
      us = before ++ .deliver (byte :: call.payload) call.frame call.origin :: after ∧
        Effective before (byte &&& 0x7f) call.handler := by
  induction us using List.reverseRecOn with
  | nil => exact absurd h (Array.not_mem_empty call)
  | append_singleton us u ih =>
    have hearlier : call ∈ ((∅ : HandlerTable H).run us).calls → ∃ before byte after,
        us ++ [u] = before ++ .deliver (byte :: call.payload) call.frame call.origin :: after ∧
          Effective before (byte &&& 0x7f) call.handler := by
      intro h
      obtain ⟨before, byte, after, rfl, heffective⟩ := ih h
      exact ⟨before, byte, after ++ [u], by simp, heffective⟩
    rw [run_concat] at h
    cases u with
    | register type handler => exact hearlier h
    | unregister type => exact hearlier h
    | query type => exact hearlier h
    | deliver message frame origin =>
      cases message with
      | nil => exact hearlier h
      | cons byte payload =>
        rw [apply, deliver_cons] at h
        cases hget : ((∅ : HandlerTable H).run us).get? (.ofCode (byte &&& 0x7f)) with
        | none =>
          rw [hget] at h
          exact hearlier h
        | some handler =>
          rw [hget] at h
          rcases Array.mem_push.1 h with h | rfl
          · exact hearlier h
          · refine ⟨us, byte, [], rfl, ?_⟩
            rwa [get?_run, MessageType.code_ofCode] at hget

end Run

/-! ## What the table answers -/

/-- The table answers in all respects as the run tells. -/
structure FollowsHistory (t : HandlerTable H) (us : List (Use H)) : Prop where
  /-- A code that was registered and not taken away since has exactly one handler. -/
  effective : ∀ code, Registered us code ↔ ∃! handler, Effective us code handler
  deliver_empty : ∀ frame origin, Dispatcher.deliver t [] frame origin = (.empty, t)
  /-- The handler in effect is called, once, and nobody else. -/
  deliver_handled : ∀ byte payload frame origin handler, Effective us (byte &&& 0x7f) handler →
    Dispatcher.deliver t (byte :: payload) frame origin =
      (.handled (.ofCode (byte &&& 0x7f)),
        { t with calls := t.calls.push ⟨handler, payload, frame, origin⟩ })
  deliver_unrecognized : ∀ byte payload frame origin, ¬ Registered us (byte &&& 0x7f) →
    Dispatcher.deliver t (byte :: payload) frame origin =
      (.unrecognized (.ofCode (byte &&& 0x7f)), t)
  register : ∀ type handler previous,
    (t.register type handler).1 = some previous ↔ Effective us type.code previous
  unregister : ∀ type previous, (t.unregister type).1 = some previous ↔ Effective us type.code previous
  isRegistered : ∀ type, t.isRegistered type = true ↔ Registered us type.code
  /-- Whoever has been called was registered for the code of the message, which has seven bits. -/
  calls : ∀ call ∈ t.calls, ∃ before byte after,
    us = before ++ .deliver (byte :: call.payload) call.frame call.origin :: after ∧
      byte &&& 0x7f < 0x80 ∧ Effective before (byte &&& 0x7f) call.handler
  /-- The text lists the codes with a handler in ascending order, and nothing else is listed so. -/
  text : ∃ codes : List UInt8, codes.Pairwise (· < ·) ∧ (∀ code, code ∈ codes ↔ Registered us code) ∧
    ∀ codes', toString t = listing codes' ↔ codes' = codes

/-- **The last registration counts.** A table that was empty answers as the registrations and removals
since tell, code by code. -/
theorem table_follows_history (us : List (Use H)) :
    ((∅ : HandlerTable H).run us).FollowsHistory us := by
  constructor
  case effective =>
    intro code
    rw [registered_iff]
    refine ⟨fun ⟨handler, h⟩ => ⟨handler, h, fun handler' h' => ?_⟩, fun h => h.exists⟩
    rw [← MessageType.code_ofCode code, ← get?_run] at h h'
    exact Option.some.inj (h'.symm.trans h)
  case deliver_empty =>
    intro frame origin
    rfl
  case deliver_handled =>
    intro byte payload frame origin handler h
    rw [← MessageType.code_ofCode (byte &&& 0x7f), ← get?_run] at h
    rw [deliver_cons, h]
  case deliver_unrecognized =>
    intro byte payload frame origin h
    rw [← MessageType.code_ofCode (byte &&& 0x7f), ← isRegistered_run, isRegistered_eq] at h
    rw [deliver_cons, Option.not_isSome_iff_eq_none.1 h]
  case register => exact fun type _ previous => get?_run us type previous
  case unregister => exact get?_run us
  case isRegistered => exact isRegistered_run us
  case calls =>
    intro call h
    obtain ⟨before, byte, after, heq, heffective⟩ := exists_of_mem_calls h
    exact ⟨before, byte, after, heq, masked_lt byte, heffective⟩
  case text =>
    refine ⟨((∅ : HandlerTable H).run us).codes, pairwise_codes _, fun code => ?_, fun codes => ?_⟩
    · rw [mem_codes, isRegistered_run, MessageType.code_ofCode]
    · rw [toString_eq]
      exact ⟨fun h => (listing_injective h).symm, fun h => h ▸ rfl⟩

/-- Two types of one code are registered, and a code that no message has. -/
def aliased : List (Use Nat) :=
  [.register (.unassigned 0x81) 9, .register .pldm 0, .register (.unassigned 0x01) 7]

theorem effective_aliased : Effective aliased 0x01 7 :=
  ⟨[.register (.unassigned 0x81) 9, .register .pldm 0], .unassigned 0x01, [], rfl, rfl, by simp⟩

theorem registered_aliased {code : UInt8} : Registered aliased code ↔ code ∈ [0x01, 0x81] := by
  constructor
  · rintro ⟨before, type, handler, after, heq, rfl, -⟩
    have hin : Use.register type handler ∈ aliased := by simp [heq]
    simp only [aliased, List.mem_cons, Use.register.injEq, List.not_mem_nil, or_false] at hin
    rcases hin with ⟨rfl, -⟩ | ⟨rfl, -⟩ | ⟨rfl, -⟩ <;> decide
  · intro hcode
    rcases List.mem_pair.1 hcode with rfl | rfl
    · exact registered_iff.2 ⟨7, effective_aliased⟩
    · exact ⟨[], .unassigned 0x81, 9, _, rfl, rfl, by decide⟩

/-- The message with the first byte 0x81 goes to the handler that was registered last for the code 0x01,
and the codes are listed in their order and not in that of their registrations. -/
theorem aliased_called :
    (Dispatcher.deliver ((∅ : HandlerTable Nat).run aliased) [0x81, 0xaa] 5
        (Flow.origin ⟨⟨8, 16⟩, ⟨true, 3⟩⟩ {})).1 = .handled .pldm ∧
      (Dispatcher.deliver ((∅ : HandlerTable Nat).run aliased) [0x81, 0xaa] 5
        (Flow.origin ⟨⟨8, 16⟩, ⟨true, 3⟩⟩ {})).2.calls =
          #[⟨7, [0xaa], 5, ⟨⟨⟨8, 16⟩, ⟨true, 3⟩⟩, ⟨3, 11⟩, {}⟩⟩] ∧
      toString ((∅ : HandlerTable Nat).run aliased) =
        "DispatchTable \x7b message_types: [Pldm, Unassigned(129)] \x7d" := by
  have h := table_follows_history aliased
  obtain ⟨codes, hsorted, hmem, htext⟩ := h.text
  have hcodes : codes = [0x01, 0x81] := by
    refine List.Perm.eq_of_pairwise (fun a b _ _ hab hba => absurd hab (UInt8.lt_asymm hba)) hsorted
      (by decide) ((List.perm_ext_iff_of_nodup hsorted.nodup (by decide)).2 fun code => ?_)
    rw [hmem, registered_aliased]
  refine ⟨?_, ?_, (htext [0x01, 0x81]).2 hcodes.symm⟩
  · rw [h.deliver_handled _ _ _ _ _ effective_aliased]
    rfl
  · rw [h.deliver_handled _ _ _ _ _ effective_aliased]
    rfl

end HandlerTable

end MctpReceiver
