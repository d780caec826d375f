import MctpReceiver.Delivery.HandlerTable
import Mathlib.Data.List.Nodup
import Std.Data.String.ToNat

/-!
# What a handler table lists

A handler table lists the message types that it has a handler for. The list is in the order of their
codes because it is sorted, whatever the order in which the map keeps them (`pairwise_codes`). And the
codes can be read from it (`listing_injective`): no two of them have the same name, and no name has the
comma in it that stands between two.
-/

namespace MctpReceiver

/-! ## Names -/

namespace MessageType

theorem mem_assigned_or (t : MessageType) : t ∈ assigned ∨ ∃ c, t = unassigned c := by
  cases t <;> simp [assigned]

theorem toList_name_unassigned (c : UInt8) :
    (unassigned c).name.toList = "Unassigned(".toList ++ c.toNat.repr.toList ++ [')'] := by
  show (toString "Unassigned(" ++ c.toNat.repr ++ toString ")").toList = _
  rw [String.toList_append, String.toList_append]
  rfl

/-- Only the names of numbers begin with this letter. -/
theorem head?_name_of_mem_assigned {t : MessageType} (h : t ∈ assigned) :
    t.name.toList.head? ≠ some 'U' := by
  revert t
  decide

theorem name_injective : Function.Injective name := by
  have hne : ∀ {t c}, t ∈ assigned → t.name ≠ (unassigned c).name := by
    intro t c ht heq
    refine head?_name_of_mem_assigned ht ?_
    rw [heq, toList_name_unassigned]
    rfl
  intro s t h
  rcases mem_assigned_or s with hs | ⟨c, rfl⟩ <;> rcases mem_assigned_or t with ht | ⟨d, rfl⟩
  · exact List.inj_on_of_nodup_map (by decide) hs ht h
  · exact absurd h (hne hs)
  · exact absurd h.symm (hne ht)
  · have hlist := congrArg String.toList h
    rw [toList_name_unassigned, toList_name_unassigned, List.append_left_inj,
      List.append_right_inj, String.toList_inj, Nat.repr_inj, UInt8.toNat_inj] at hlist
    rw [hlist]

theorem comma_notMem_name (t : MessageType) : ',' ∉ t.name.toList := by
  rcases mem_assigned_or t with ht | ⟨c, rfl⟩
  · revert t
    decide
  · rw [toList_name_unassigned, Nat.repr_eq_ofList_toDigits, String.toList_ofList]
    have hdigits : ',' ∉ Nat.toDigits 10 c.toNat := fun h =>
      absurd (Nat.isDigit_of_mem_toDigits (by decide) (by decide) h) (by decide)
    simp [hdigits]

theorem toList_name_ne_nil (t : MessageType) : t.name.toList ≠ [] := by
  rcases mem_assigned_or t with ht | ⟨c, rfl⟩
  · revert t
    decide
  · simp [toList_name_unassigned]

theorem ofCode_injective : Function.Injective ofCode :=
  Function.LeftInverse.injective code_ofCode

end MessageType

/-! ## Lists of names -/

section Separated

variable {α : Type} {x y : α} {l : List α} {ls : List (List α)}

/-- What stands between two parts may as well open the second. -/
theorem intercalate_pair (x y : α) (l : List α) (ls : List (List α)) :
    [x, y].intercalate (l :: ls) = [x].intercalate (l :: ls.map (y :: ·)) := by
  induction ls generalizing l with
  | nil => rw [List.map_nil, List.intercalate_singleton, List.intercalate_singleton]
  | cons l' ls ih =>
    rw [List.intercalate_cons_cons, ih, List.map_cons, List.intercalate_cons_cons,
      List.intercalate_cons_cons_left]
    simp

/-- Parts in which the first of two separating items does not occur can be told from their list. -/
theorem splitOn_intercalate_pair [BEq α] [LawfulBEq α] (hxy : x ≠ y) (h : ∀ l' ∈ l :: ls, x ∉ l') :
    ([x, y].intercalate (l :: ls)).splitOn x = l :: ls.map (y :: ·) := by
  rw [intercalate_pair]
  refine List.splitOn_intercalate x (fun l' hl' => ?_) (List.cons_ne_nil _ _)
  rcases List.mem_cons.1 hl' with rfl | hl'
  · exact h l' (List.mem_cons_self ..)
  · obtain ⟨l'', hl'', rfl⟩ := List.mem_map.1 hl'
    rw [List.mem_cons, not_or]
    exact ⟨hxy, h l'' (List.mem_cons_of_mem _ hl'')⟩

end Separated

/-! ## The list -/

namespace HandlerTable

variable {H : Type}

/-- The text that lists message types by their codes. -/
def listing (codes : List UInt8) : String :=
  "DispatchTable \x7b message_types: [" ++
    ", ".intercalate (codes.map fun code => (MessageType.ofCode code).name) ++ "] \x7d"

/-- The name of a code, letter by letter. -/
def nameOf (code : UInt8) : List Char := (MessageType.ofCode code).name.toList

theorem nameOf_injective : Function.Injective nameOf := fun _ _ h =>
  MessageType.ofCode_injective (MessageType.name_injective (String.toList_inj.1 h))

theorem toList_append_append (front names back : String) :
    (front ++ names ++ back).toList = front.toList ++ (names.toList ++ back.toList) := by
  rw [String.toList_append, String.toList_append, List.append_assoc]

theorem toList_listing (codes : List UInt8) : (listing codes).toList =
    "DispatchTable \x7b message_types: [".toList ++
      ([',', ' '].intercalate (codes.map nameOf) ++ "] \x7d".toList) := by
  have hseparator : ", ".toList = [',', ' '] := by decide
  have hnames : (codes.map fun code => (MessageType.ofCode code).name).map String.toList =
      codes.map nameOf := by
    rw [List.map_map]
    rfl
  refine (toList_append_append _ _ _).trans ?_
  rw [String.toList_intercalate, hseparator, hnames]

/-- Cut at its commas, a list of names shows each of them. -/
theorem splitOn_names (code : UInt8) (codes : List UInt8) :
    ([',', ' '].intercalate ((code :: codes).map nameOf)).splitOn ',' =
      nameOf code :: codes.map fun code => ' ' :: nameOf code := by
  rw [List.map_cons, splitOn_intercalate_pair (by decide), List.map_map]
  · rfl
  · intro l hl
    rw [← List.map_cons] at hl
    obtain ⟨code', -, rfl⟩ := List.mem_map.1 hl
    exact MessageType.comma_notMem_name _

theorem names_ne_nil (code : UInt8) (codes : List UInt8) :
    [',', ' '].intercalate ((code :: codes).map nameOf) ≠ [] := by
  intro h
  have hsplit := splitOn_names code codes
  rw [h] at hsplit
  exact MessageType.toList_name_ne_nil _ (List.cons.inj hsplit).1.symm

/-- The codes can be read from the text. -/
theorem listing_injective : Function.Injective listing := by
  intro codes codes' h
  have hnames : [',', ' '].intercalate (codes.map nameOf) =
      [',', ' '].intercalate (codes'.map nameOf) := by
    have hlist := congrArg String.toList h
    rwa [toList_listing, toList_listing, List.append_right_inj, List.append_left_inj] at hlist
  cases codes with
  | nil =>
    cases codes' with
    | nil => rfl
    | cons code' codes' => exact absurd hnames.symm (names_ne_nil code' codes')
  | cons code codes =>
    cases codes' with
    | nil => exact absurd hnames (names_ne_nil code codes)
    | cons code' codes' =>
      have hparts := splitOn_names code codes
      rw [hnames, splitOn_names, List.cons.injEq] at hparts
      obtain ⟨hhead, htail⟩ := hparts
      have hspaced : Function.Injective fun code => ' ' :: nameOf code := fun c c' hc =>
        nameOf_injective (List.cons.inj hc).2
      rw [nameOf_injective hhead, List.map_injective_iff.2 hspaced htail]

/-- The codes with a handler, in the order in which the table lists them. -/
def codes (t : HandlerTable H) : List UInt8 := t.handlers.keys.mergeSort fun c c' => c ≤ c'

theorem mem_codes {t : HandlerTable H} {code : UInt8} :
    code ∈ t.codes ↔ t.isRegistered (.ofCode code) = true := by
  unfold isRegistered
  rw [codes, List.mem_mergeSort, Std.HashMap.mem_keys, MessageType.code_ofCode,
    Std.HashMap.contains_iff_mem]

/-- In whatever order the map has the codes, sorting puts them in ascending order. -/
theorem pairwise_codes (t : HandlerTable H) : t.codes.Pairwise (· < ·) := by
  have hsorted : t.codes.Pairwise fun c c' => decide (c ≤ c') = true := by
    refine List.pairwise_mergeSort (fun a b c hab hbc => ?_) (fun a b => ?_) _
    · rw [decide_eq_true_eq] at hab hbc ⊢
      exact UInt8.le_trans hab hbc
    · rw [Bool.or_eq_true, decide_eq_true_eq, decide_eq_true_eq]
      exact UInt8.le_total a b
  have hnodup : t.codes.Nodup := List.nodup_mergeSort.2 Std.HashMap.nodup_keys
  refine (hsorted.and hnodup).imp fun h => ?_
  exact UInt8.lt_of_le_of_ne (of_decide_eq_true h.1) h.2

/-- Sorting the types by their codes is sorting the codes. -/
theorem types_eq (t : HandlerTable H) : t.types = t.codes.map MessageType.ofCode := by
  rw [types, codes, List.map_mergeSort]
  intro a _ b _
  rw [MessageType.code_ofCode, MessageType.code_ofCode]

theorem toString_eq (t : HandlerTable H) : toString t = listing t.codes := by
  show "DispatchTable \x7b message_types: [" ++ ", ".intercalate (t.types.map (·.name)) ++ "] \x7d" = _
  rw [types_eq, List.map_map]
  rfl

end HandlerTable

end MctpReceiver
