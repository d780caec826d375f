import MctpReceiver.Settings
import Mathlib.Data.List.DropRight
import Mathlib.Data.List.Forall2

/-!
# The grammar of the switch

A text says something of a switch if it spells one of four words: blanks, the letters of the word,
small or capital, and blanks again. `environment_follows_grammar` says that the settings are read off
the one variable by this grammar, and that every other text is refused as it was found.

The reader knows no grammar: it trims the text, lowers what is left and looks that up.
`Text.IsPlain.spells_iff` says that this finds just the texts that spell the word. Trimming comes
before lowering, so it has to leave a letter of either case; it does, since no blank is a letter
(`Text.toLower_of_isBlank`).
-/

namespace MctpReceiver

namespace Text

/-! ## Letter case -/

/-- `d` is the small form of the ASCII letter `c`. -/
def IsCapitalOf (c d : Char) : Prop := c.isUpper = true ∧ d.toNat = c.toNat + 32

/-- The characters are equal, or one ASCII letter, small and capital. -/
def SameLetter (c d : Char) : Prop := c = d ∨ IsCapitalOf c d ∨ IsCapitalOf d c

instance (c d : Char) : Decidable (IsCapitalOf c d) := inferInstanceAs (Decidable (_ ∧ _))

instance : DecidableRel SameLetter := fun _ _ => inferInstanceAs (Decidable (_ ∨ _ ∨ _))

variable {c d : Char}

theorem isUpper_iff : c.isUpper = true ↔ 65 ≤ c.toNat ∧ c.toNat ≤ 90 := by
  unfold Char.isUpper
  rw [decide_eq_true_eq]
  exact Iff.rfl

theorem toNat_toLower (c : Char) :
    c.toLower.toNat = if c.isUpper = true then c.toNat + 32 else c.toNat := by
  unfold Char.toLower
  split
  · next h =>
    have hupper : c.isUpper = true := decide_eq_true h
    have hle := (isUpper_iff.1 hupper).2
    rw [if_pos hupper]
    show (c.val + 32).toNat = c.val.toNat + 32
    rw [UInt32.toNat_add]
    show (c.toNat + 32) % 2 ^ 32 = c.toNat + 32
    omega
  · next h => exact (if_neg (mt of_decide_eq_true h)).symm

/-- Letters that differ in nothing but case are those with the same small form. -/
theorem sameLetter_iff : SameLetter c d ↔ c.toLower = d.toLower := by
  unfold SameLetter IsCapitalOf
  rw [← Char.toNat_inj, ← Char.toNat_inj, toNat_toLower, toNat_toLower]
  simp only [isUpper_iff]
  split <;> split <;> omega

theorem forall₂_sameLetter_iff {cs ds : List Char} :
    List.Forall₂ SameLetter cs ds ↔ cs.map Char.toLower = ds.map Char.toLower := by
  have hsame : SameLetter = fun c d => c.toLower = d.toLower := by
    funext c d
    exact propext sameLetter_iff
  rw [← List.forall₂_eq_eq_eq, List.forall₂_map_left_iff, List.forall₂_map_right_iff, hsame]

/-! ## Blanks -/

/-- The characters with the property White_Space, one by one. -/
def whiteSpace : List Nat := [
  0x9, 0xa, 0xb, 0xc, 0xd, 0x20, 0x85, 0xa0, 0x1680, 0x2000, 0x2001, 0x2002, 0x2003, 0x2004, 0x2005,
  0x2006, 0x2007, 0x2008, 0x2009, 0x200a, 0x2028, 0x2029, 0x202f, 0x205f, 0x3000]

theorem isBlank_iff : isBlank c = true ↔ c.toNat ∈ whiteSpace := by
  simp only [isBlank, blankRanges, whiteSpace, List.any_cons, List.any_nil, Bool.or_eq_true,
    Bool.and_eq_true, decide_eq_true_eq, Bool.false_eq_true, List.mem_cons, List.not_mem_nil,
    or_false]
  omega

/-- No blank is a letter. -/
theorem toLower_of_isBlank (h : isBlank c = true) : c.toLower = c := by
  have hsmall : ∀ n ∈ whiteSpace, ¬ (65 ≤ n ∧ n ≤ 90) := by decide
  rw [← Char.toNat_inj, toNat_toLower, if_neg]
  rw [isUpper_iff]
  exact hsmall _ (isBlank_iff.1 h)

section Trim

variable {cs before word after : List Char} {x y : Char}

/-- What trimming takes away are blanks at both ends. -/
theorem exists_append_trim (cs : List Char) :
    ∃ before after, cs = before ++ trim cs ++ after ∧ (∀ c ∈ before, isBlank c = true) ∧
      ∀ c ∈ after, isBlank c = true := by
  refine ⟨cs.takeWhile isBlank, (cs.dropWhile isBlank).rtakeWhile isBlank, ?_,
    fun c => List.mem_takeWhile_imp, fun c => List.mem_rtakeWhile_imp⟩
  show cs = cs.takeWhile isBlank ++ (cs.dropWhile isBlank).rdropWhile isBlank ++ _
  rw [List.append_assoc, List.rdropWhile_append_rtakeWhile, List.takeWhile_append_dropWhile]

theorem mem_of_mem_trim (hc : c ∈ trim cs) : c ∈ cs := by
  obtain ⟨before, after, heq, -, -⟩ := exists_append_trim cs
  rw [heq, List.mem_append, List.mem_append]
  exact Or.inl (Or.inr hc)

/-- All that is not blank is left. -/
theorem mem_trim_of_not_blank (hc : c ∈ cs) (hne : isBlank c = false) : c ∈ trim cs := by
  obtain ⟨before, after, heq, hb, ha⟩ := exists_append_trim cs
  rw [heq, List.mem_append, List.mem_append] at hc
  rcases hc with (hc | hc) | hc
  · rw [hb c hc] at hne
    cases hne
  · exact hc
  · rw [ha c hc] at hne
    cases hne

theorem dropWhile_append_of_mem {p : Char → Bool} {l r : List Char} (hx : x ∈ l)
    (hp : p x = false) : (l ++ r).dropWhile p = l.dropWhile p ++ r := by
  rw [List.dropWhile_append, if_neg]
  intro hnil
  rw [List.isEmpty_iff, List.dropWhile_eq_nil_iff] at hnil
  rw [hnil x hx] at hp
  cases hp

/-- All that stands between two characters that are not blank is left. -/
theorem mem_trim_of_between {l r : List Char} (hx : x ∈ l) (hxb : isBlank x = false) (hy : y ∈ r)
    (hyb : isBlank y = false) : c ∈ trim (l ++ c :: r) := by
  unfold trim
  -- `x` stops the trimming at the start, and `y` the one at the end
  rw [dropWhile_append_of_mem hx hxb, List.reverse_append, List.reverse_cons, List.append_assoc,
    dropWhile_append_of_mem (List.mem_reverse.2 hy) hyb]
  simp

theorem dropWhile_of_not_blank (h : ∀ c ∈ cs, isBlank c = false) : cs.dropWhile isBlank = cs := by
  rw [List.dropWhile_eq_self_iff]
  intro hl hblank
  rw [h _ (List.getElem_mem hl)] at hblank
  cases hblank

/-- A word without blanks is what is left of it among blanks. -/
theorem trim_append (hb : ∀ c ∈ before, isBlank c = true) (ha : ∀ c ∈ after, isBlank c = true)
    (hw : ∀ c ∈ word, isBlank c = false) : trim (before ++ word ++ after) = word := by
  unfold trim
  rw [List.append_assoc, List.dropWhile_append_of_pos hb]
  cases word with
  | nil =>
    rw [List.nil_append, List.dropWhile_eq_nil_iff.2 ha]
    rfl
  | cons c word =>
    have ha' : ∀ d ∈ after.reverse, isBlank d = true := fun d hd => ha d (List.mem_reverse.1 hd)
    have hw' : ∀ d ∈ (c :: word).reverse, isBlank d = false := fun d hd =>
      hw d (List.mem_reverse.1 hd)
    rw [dropWhile_append_of_mem List.mem_cons_self (hw c List.mem_cons_self),
      dropWhile_of_not_blank hw, List.reverse_append, List.dropWhile_append_of_pos ha',
      dropWhile_of_not_blank hw', List.reverse_reverse]

end Trim

/-! ## Spelling a word -/

/-- The text is the word, its letters small or capital, with blanks around it. -/
def Spells (text word : String) : Prop :=
  ∃ before letters after, text.toList = before ++ letters ++ after ∧
    (∀ c ∈ before, isBlank c = true) ∧ (∀ c ∈ after, isBlank c = true) ∧
    List.Forall₂ SameLetter letters word.toList

/-- What is looked up: the text without the blanks around it, in small letters. -/
def core (text : String) : String := String.ofList ((trim text.toList).map Char.toLower)

/-- The word is not empty, and its characters are neither blank nor capital nor beyond ASCII. -/
structure IsPlain (word : String) : Prop where
  ne_nil : word.toList ≠ []
  small : ∀ c ∈ word.toList, c.toLower = c
  not_blank : ∀ c ∈ word.toList, isBlank c = false
  ascii : ∀ c ∈ word.toList, c.toNat < 128

/-- The text spells no word: it has nothing but blanks, or a blank inside, or something that is
neither blank nor ASCII. -/
inductive IsNoWord (text : String) : Prop where
  | blank (h : ∀ c ∈ text.toList, isBlank c = true)
  | inner (l r : List Char) (c x y : Char) (htext : text.toList = l ++ c :: r)
    (hblank : isBlank c = true) (hx : x ∈ l ∧ isBlank x = false) (hy : y ∈ r ∧ isBlank y = false)
  | foreign (c : Char) (hc : c ∈ text.toList) (hne : isBlank c = false) (hge : 128 ≤ c.toNat)

variable {text word : String}

theorem core_eq_iff : core text = word ↔ (trim text.toList).map Char.toLower = word.toList := by
  unfold core
  rw [← String.toList_inj, String.toList_ofList]

namespace IsPlain

variable {letters : List Char}

theorem forall₂_iff (hplain : IsPlain word) :
    List.Forall₂ SameLetter letters word.toList ↔ letters.map Char.toLower = word.toList := by
  rw [forall₂_sameLetter_iff, List.map_congr_left hplain.small, List.map_id']

/-- What becomes a letter of the word by lowering is no blank. -/
theorem not_blank_of_toLower (hplain : IsPlain word) (hc : c.toLower ∈ word.toList) :
    isBlank c = false := by
  by_contra hblank
  rw [Bool.not_eq_false] at hblank
  rw [toLower_of_isBlank hblank] at hc
  rw [hplain.not_blank c hc] at hblank
  cases hblank

theorem lt_of_toLower (hplain : IsPlain word) (hc : c.toLower ∈ word.toList) : c.toNat < 128 := by
  have hlt := hplain.ascii _ hc
  rw [toNat_toLower] at hlt
  split at hlt <;> omega

/-- Looking up finds just the texts that spell the word. -/
theorem spells_iff (hplain : IsPlain word) : Spells text word ↔ core text = word := by
  rw [core_eq_iff]
  constructor
  · rintro ⟨before, letters, after, htext, hb, ha, hletters⟩
    rw [hplain.forall₂_iff] at hletters
    have hw : ∀ c ∈ letters, isBlank c = false := fun c hc =>
      hplain.not_blank_of_toLower (hletters ▸ List.mem_map_of_mem hc)
    rw [htext, trim_append hb ha hw, hletters]
  · intro hword
    obtain ⟨before, after, htext, hb, ha⟩ := exists_append_trim text.toList
    exact ⟨before, trim text.toList, after, htext, hb, ha, hplain.forall₂_iff.2 hword⟩

theorem not_spells (hplain : IsPlain word) (h : IsNoWord text) : ¬ Spells text word := by
  intro hspells
  have hword := core_eq_iff.1 (hplain.spells_iff.1 hspells)
  have hmem : ∀ c ∈ trim text.toList, c.toLower ∈ word.toList := fun c hc =>
    hword ▸ List.mem_map_of_mem hc
  cases h with
  | blank hall =>
    have hnil : trim text.toList ≠ [] := by
      intro hnil
      rw [hnil, List.map_nil] at hword
      exact hplain.ne_nil hword.symm
    obtain ⟨c, hc⟩ := List.exists_mem_of_ne_nil _ hnil
    have hblank := hall c (mem_of_mem_trim hc)
    rw [hplain.not_blank_of_toLower (hmem c hc)] at hblank
    cases hblank
  | inner l r c x y htext hblank hx hy =>
    have hc : c ∈ trim text.toList := htext ▸ mem_trim_of_between hx.1 hx.2 hy.1 hy.2
    rw [hplain.not_blank_of_toLower (hmem c hc)] at hblank
    cases hblank
  | foreign c hc hne hge =>
    have hlt := hplain.lt_of_toLower (hmem c (mem_trim_of_not_blank hc hne))
    omega

end IsPlain

theorem core_mem_pair_iff {word' : String} (hplain : IsPlain word) (hplain' : IsPlain word') :
    core text ∈ [word, word'] ↔ Spells text word ∨ Spells text word' := by
  rw [List.mem_pair, hplain.spells_iff, hplain'.spells_iff]

end Text

/-! ## The switch -/

namespace Settings

open Text

variable {text : String}

theorem isPlain_of_mem {word : String} (h : word ∈ onWords ++ offWords) : IsPlain word := by
  have hall : ∀ word ∈ onWords ++ offWords, word.toList ≠ [] ∧ word.toList.all fun c =>
      c.toLower = c ∧ isBlank c = false ∧ c.toNat < 128 := by decide
  obtain ⟨hne, hword⟩ := hall word h
  have hplain : ∀ c ∈ word.toList, c.toLower = c ∧ isBlank c = false ∧ c.toNat < 128 :=
    fun c hc => of_decide_eq_true (List.all_eq_true.1 hword c hc)
  exact ⟨hne, fun c hc => (hplain c hc).1, fun c hc => (hplain c hc).2.1,
    fun c hc => (hplain c hc).2.2⟩

/-- The text spells a word that switches on. -/
def SpellsOn (text : String) : Prop := Spells text "true" ∨ Spells text "1"

/-- The text spells a word that switches off. -/
def SpellsOff (text : String) : Prop := Spells text "false" ∨ Spells text "0"

theorem core_mem_onWords_iff : core text ∈ onWords ↔ SpellsOn text :=
  core_mem_pair_iff (isPlain_of_mem (by decide)) (isPlain_of_mem (by decide))

theorem core_mem_offWords_iff : core text ∈ offWords ↔ SpellsOff text :=
  core_mem_pair_iff (isPlain_of_mem (by decide)) (isPlain_of_mem (by decide))

theorem switch?_eq (text : String) :
    switch? text =
      if core text ∈ onWords then some true
      else if core text ∈ offWords then some false
      else none := rfl

/-- A text switches on, off or neither, and never both. -/
theorem switch?_cases (text : String) :
    switch? text = some true ∧ SpellsOn text ∧ ¬ SpellsOff text ∨
      switch? text = some false ∧ ¬ SpellsOn text ∧ SpellsOff text ∨
      switch? text = none ∧ ¬ SpellsOn text ∧ ¬ SpellsOff text := by
  have hdisjoint : ∀ word ∈ onWords, word ∉ offWords := by decide
  rw [switch?_eq, ← core_mem_onWords_iff, ← core_mem_offWords_iff]
  by_cases hon : core text ∈ onWords
  · rw [if_pos hon]
    exact Or.inl ⟨rfl, hon, hdisjoint _ hon⟩
  · rw [if_neg hon]
    by_cases hoff : core text ∈ offWords
    · rw [if_pos hoff]
      exact Or.inr (Or.inl ⟨rfl, hon, hoff⟩)
    · rw [if_neg hoff]
      exact Or.inr (Or.inr ⟨rfl, hon, hoff⟩)

theorem not_spells_of_isNoWord (h : IsNoWord text) : ¬ SpellsOn text ∧ ¬ SpellsOff text := by
  unfold SpellsOn SpellsOff
  rw [not_or, not_or]
  refine ⟨⟨?_, ?_⟩, ?_, ?_⟩
  all_goals exact (isPlain_of_mem (by decide)).not_spells h

theorem ofEnvironment_of_some {lookup : String → Option String}
    (h : lookup "MCTP_REASSEMBLE" = some text) :
    ofEnvironment lookup =
      (switch? text).elim (.error (.invalidValue "MCTP_REASSEMBLE" text))
        fun reassemble => .ok { reassemble } := by
  unfold ofEnvironment reassembleVariable
  simp only [h]
  cases switch? text <;> rfl

/-- **The grammar of the environment.** Only the one variable matters. Without it the settings are
those by default. A text switches reassembly on if it spells `1` or `true` and off if it spells `0` or
`false`, with white space around it and in letters of either case; every other is refused with the name
of the variable and the text as it stands, among them what has no word in it, a blank inside, or
anything that is neither blank nor ASCII. -/
theorem environment_follows_grammar :
    (∀ c : Char, isBlank c = true ↔ c.toNat ∈ whiteSpace) ∧
    (∀ lookup lookup' : String → Option String,
      lookup "MCTP_REASSEMBLE" = lookup' "MCTP_REASSEMBLE" →
        ofEnvironment lookup = ofEnvironment lookup') ∧
    (∀ lookup : String → Option String, lookup "MCTP_REASSEMBLE" = none →
      ofEnvironment lookup = .ok {}) ∧
    ∀ (lookup : String → Option String) (text : String), lookup "MCTP_REASSEMBLE" = some text →
      (ofEnvironment lookup = .ok { reassemble := true } ↔ SpellsOn text) ∧
      (ofEnvironment lookup = .ok { reassemble := false } ↔ SpellsOff text) ∧
      (¬ SpellsOn text → ¬ SpellsOff text →
        ofEnvironment lookup = .error (.invalidValue "MCTP_REASSEMBLE" text)) ∧
      (IsNoWord text →
        ofEnvironment lookup = .error (.invalidValue "MCTP_REASSEMBLE" text)) := by
  refine ⟨fun c => isBlank_iff, ?_, ?_, ?_⟩
  · intro lookup lookup' h
    unfold ofEnvironment reassembleVariable
    rw [h]
  · intro lookup h
    unfold ofEnvironment reassembleVariable
    rw [h]
  · intro lookup text h
    rw [ofEnvironment_of_some h]
    rcases switch?_cases text with ⟨hread, hon, hoff⟩ | ⟨hread, hon, hoff⟩ | ⟨hread, hon, hoff⟩
    · rw [hread]
      exact ⟨iff_of_true rfl hon, iff_of_false nofun hoff, fun hno => absurd hon hno,
        fun hno => absurd hon (not_spells_of_isNoWord hno).1⟩
    · rw [hread]
      exact ⟨iff_of_false nofun hon, iff_of_true rfl hoff, fun _ hno => absurd hoff hno,
        fun hno => absurd hoff (not_spells_of_isNoWord hno).2⟩
    · rw [hread]
      exact ⟨iff_of_false nofun hon, iff_of_false nofun hoff, fun _ _ => rfl, fun _ => rfl⟩

/-- A word in mixed case among blanks beyond ASCII, a digit, lookups that differ elsewhere, a variable
that is not set, a word that is none of the four, a word with a blank in it and one with a long s. -/
theorem long_s_refused :
    ofEnvironment (fun _ => some "\u3000TrUe\n") = .ok { reassemble := true } ∧
      ofEnvironment (fun _ => some "0\u00a0") = .ok { reassemble := false } ∧
      ofEnvironment (fun _ => some "0") =
        ofEnvironment (fun name => if name = "MCTP_REASSEMBLE" then some "0" else none) ∧
      ofEnvironment (fun name => if name = "MCTP_REASSEMBLE" then none else some "0") = .ok {} ∧
      ofEnvironment (fun _ => some "On") = .error (.invalidValue "MCTP_REASSEMBLE" "On") ∧
      ofEnvironment (fun _ => some "tr ue") =
        .error (.invalidValue "MCTP_REASSEMBLE" "tr ue") ∧
      ofEnvironment (fun _ => some " FAL\u017fE") =
        .error (.invalidValue "MCTP_REASSEMBLE" " FAL\u017fE") := by
  obtain ⟨-, hsame, habsent, hread⟩ := environment_follows_grammar
  have htext (text : String) := hread (fun _ => some text) text rfl
  refine ⟨(htext _).1.2 (Or.inl ?_), (htext _).2.1.2 (Or.inr ?_), hsame _ _ rfl, habsent _ rfl,
    (htext _).2.2.1 ?_ ?_, (htext _).2.2.2 ?_, (htext _).2.2.2 ?_⟩
  · exact ⟨['\u3000'], ['T', 'r', 'U', 'e'], ['\n'], rfl, List.forall_mem_singleton.2 rfl,
      List.forall_mem_singleton.2 rfl, by decide⟩
  · exact ⟨[], ['0'], ['\u00a0'], rfl, List.forall_mem_nil _, List.forall_mem_singleton.2 rfl,
      by decide⟩
  · rw [← core_mem_onWords_iff]
    decide
  · rw [← core_mem_offWords_iff]
    decide
  · exact .inner ['t', 'r'] ['u', 'e'] ' ' 't' 'e' rfl (by decide) (by decide) (by decide)
  · exact .foreign '\u017f' (by decide) (by decide) (by decide)

end Settings

end MctpReceiver
