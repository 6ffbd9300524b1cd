import FiniteAutomata.Proofs.Determinization.Discovery
import FiniteAutomata.Proofs.Inventory
import FiniteAutomata.Proofs.Pattern.Canonical

namespace FiniteAutomata

/-!
# Plain text stands for itself

The pattern of a text is the sequence of its characters.  It matches the text and nothing
else, it is written as the text, and if no character of the text has a meaning of its own it
is also what reading the text gives.

After a beginning of the text a run is in a set of states of its own, however often the text
repeats itself: only one text is matched, so beginnings of different lengths can be continued
by different words only.  After anything else a run is in the empty set.  This makes one
state of the deterministic automaton for each beginning and one for everything else.
-/

namespace Pattern

/-! ## The sequence of the characters -/

/-- What is gathered from the characters of a word is gathered from its pattern. -/
theorem gather_ofWord {β : Type} (gather : Pattern -> List β)
    (gather_concat : forall first second,
      gather (concat first second) = gather first ++ gather second)
    {word : Word} (nonempty : word ≠ []) :
    gather (ofWord word) = word.flatMap fun character => gather (literal character) := by
  have someLiteral : word.map literal ≠ [] := fun none => nonempty (List.map_eq_nil_iff.mp none)
  rw [ofWord, sequence_eq_flatMap gather gather_concat someLiteral, List.flatMap_map]

theorem literals_ofWord (word : Word) : (ofWord word).literals = word := by
  cases word with
  | nil => rfl
  | cons first rest =>
    rw [gather_ofWord literals (fun _ _ => rfl) (List.cons_ne_nil first rest)]
    exact List.flatMap_singleton' _

theorem items_ofWord (word : Word) : (ofWord word).items = word.map literal := by
  cases word with
  | nil => rfl
  | cons first rest =>
    rw [gather_ofWord items (fun _ _ => rfl) (List.cons_ne_nil first rest)]
    exact List.flatMap_pure_eq_map literal _

theorem length_origins_ofWord {word : Word} (nonempty : word ≠ []) :
    (ofWord word).origins.length = 2 * word.length := by
  rw [gather_ofWord origins (fun _ _ => rfl) nonempty]
  clear nonempty
  induction word with
  | nil => rfl
  | cons first rest inductionHypothesis =>
    rw [List.flatMap_cons, List.length_append, inductionHypothesis, List.length_cons]
    change 2 + _ = _
    omega

/-! ## Writing and reading -/

theorem chars_ofWord (word : Word) : (ofWord word).chars = word := by
  have notChoice : (ofWord word).isChoice = false := by
    rw [ofWord, isChoice_sequence]
    cases word <;> simp [isChoice]
  rw [← charsWithin_one_of_not_choice notChoice, ofWord, charsWithin_one_sequence,
    List.flatMap_map]
  exact List.flatMap_singleton' word

theorem render_ofText (text : String) : (ofText text).render = text := by
  rw [render, ofText, chars_ofWord, String.ofList_toList]

theorem normalForm_ofWord (word : Word) : (ofWord word).normalForm = ofWord word := by
  rw [← sequence_items, items_ofWord, ofWord]

/-- A text without characters that have a meaning of their own is read as itself. -/
theorem parse_eq_ofText {text : String}
    (plain : forall character, character ∈ text.toList -> isReserved character = false) :
    parse text = .ok (ofText text) := by
  have plainPattern : (ofText text).Plain := by
    unfold Plain
    rwa [ofText, literals_ofWord]
  have readBack := parse_render plainPattern
  rwa [render_ofText, ofText, normalForm_ofWord] at readBack

/-! ## The words that match -/

theorem language_ofWord (word : Word) : (ofWord word).language = {word} := by
  rw [ofWord, language_sequence, List.map_map]
  induction word with
  | nil => rfl
  | cons first rest inductionHypothesis =>
    rw [List.map_cons, List.prod_cons, inductionHypothesis]
    change (literal first).language * {rest} = {[first] ++ rest}
    rw [language_literal]
    exact Set.image2_singleton

theorem matches_ofWord_iff {word other : Word} : (ofWord word).Matches other ↔ other = word := by
  rw [← mem_language, language_ofWord]
  exact Set.mem_singleton_iff

/-! ## The states of the deterministic automaton -/

section States

variable {word : Word}

/-- The sets in which a run is after the beginnings of the word, shorter ones first. -/
def statesOfBeginnings (word : Word) : List StateSet :=
  (List.range (word.length + 1)).map fun length =>
    (ofWord word).toNfa.statesAfter (word.take length)

theorem mem_statesOfBeginnings_iff {state : StateSet} : state ∈ statesOfBeginnings word ↔
    exists beginning, beginning <+: word ∧ (ofWord word).toNfa.statesAfter beginning = state := by
  rw [statesOfBeginnings, List.mem_map]
  constructor
  · rintro ⟨length, _, reached⟩
    exact ⟨word.take length, List.take_prefix length word, reached⟩
  · rintro ⟨beginning, isBeginning, reached⟩
    refine ⟨beginning.length, List.mem_range.mpr (Nat.lt_succ_of_le isBeginning.length_le), ?_⟩
    rwa [← List.prefix_iff_eq_take.mp isBeginning]

/-- A run is in no state exactly if the word does not begin with what it has read. -/
theorem statesAfter_ofWord_eq_empty_iff (fits : (ofWord word).origins.length < UInt32.size)
    {beginning : Word} :
    (ofWord word).toNfa.statesAfter beginning = ∅ ↔ ¬ beginning <+: word := by
  rw [statesAfter_toNfa_eq_empty_iff fits]
  constructor
  · intro hopeless isBeginning
    exact hopeless word isBeginning (matches_ofWord_iff.mpr rfl)
  · intro notBeginning whole isPrefix accepted
    exact notBeginning (matches_ofWord_iff.mp accepted ▸ isPrefix)

/-- Beginnings of different lengths lead to different sets, because only one of them can be
continued to the whole word by the rest of it. -/
theorem length_eq_of_statesAfter_eq (fits : (ofWord word).origins.length < UInt32.size)
    {first second : Nat} (firstLe : first ≤ word.length) (secondLe : second ≤ word.length)
    (same : (ofWord word).toNfa.statesAfter (word.take first) =
      (ofWord word).toNfa.statesAfter (word.take second)) : first = second := by
  have continued := Nfa.accepts_append_of_statesAfter_eq same (word.drop first)
  rw [accepts_toNfa fits, accepts_toNfa fits, matches_ofWord_iff, matches_ofWord_iff,
    List.take_append_drop] at continued
  have lengths := congrArg List.length (continued.mp rfl)
  rw [List.length_append, List.length_take, List.length_drop, Nat.min_eq_left secondLe] at lengths
  omega

theorem nodup_statesOfBeginnings (fits : (ofWord word).origins.length < UInt32.size) :
    (statesOfBeginnings word).Nodup := by
  apply List.Nodup.map_on _ List.nodup_range
  intro first firstListed second secondListed same
  exact length_eq_of_statesAfter_eq fits (Nat.le_of_lt_succ (List.mem_range.mp firstListed))
    (Nat.le_of_lt_succ (List.mem_range.mp secondListed)) same

theorem inAlphabet_ofWord_iff (fits : (ofWord word).origins.length < UInt32.size) {other : Word} :
    (ofWord word).toNfa.InAlphabet other ↔ other ⊆ word := by
  unfold Nfa.InAlphabet
  simp only [mem_alphabet_toNfa fits, literals_ofWord]
  rfl

/-- The sets that are discovered are those of the beginnings and, unless the word is empty,
the empty set, to which the first word too long leads. -/
theorem mem_discovered_ofWord_iff (fits : (ofWord word).origins.length < UInt32.size)
    {state : StateSet} : state ∈ (ofWord word).toNfa.discovered ↔
      state ∈ statesOfBeginnings word ∨ (word ≠ [] ∧ state = ∅) := by
  rw [Nfa.mem_discovered_iff, mem_statesOfBeginnings_iff]
  simp only [inAlphabet_ofWord_iff fits]
  constructor
  · rintro ⟨other, inside, reached⟩
    by_cases isBeginning : other <+: word
    · exact Or.inl ⟨other, isBeginning, reached⟩
    · refine Or.inr ⟨?_, ?_⟩
      · intro nothing
        rw [nothing] at inside isBeginning
        exact isBeginning (List.subset_nil.mp inside ▸ List.nil_prefix)
      · rw [← reached, statesAfter_ofWord_eq_empty_iff fits]
        exact isBeginning
  · rintro (⟨beginning, isBeginning, reached⟩ | ⟨nonempty, isEmpty⟩)
    · exact ⟨beginning, isBeginning.subset, reached⟩
    · refine ⟨word ++ [word.head nonempty], ?_, ?_⟩
      · exact List.append_subset.mpr ⟨List.Subset.refl word,
          List.cons_subset.mpr ⟨List.head_mem nonempty, List.nil_subset word⟩⟩
      · rw [isEmpty, statesAfter_ofWord_eq_empty_iff fits]
        intro tooLong
        have length_le := tooLong.length_le
        rw [List.length_append, List.length_singleton] at length_le
        omega

theorem empty_not_mem_statesOfBeginnings (fits : (ofWord word).origins.length < UInt32.size) :
    ¬ (∅ : StateSet) ∈ statesOfBeginnings word := by
  rw [mem_statesOfBeginnings_iff]
  rintro ⟨beginning, isBeginning, isEmpty⟩
  exact (statesAfter_ofWord_eq_empty_iff fits).mp isEmpty isBeginning

theorem length_states_toDfa_ofWord (fits : (ofWord word).origins.length < UInt32.size) :
    (ofWord word).toDfa.states.length = if word = [] then 1 else word.length + 2 := by
  have beginnings : (statesOfBeginnings word).length = word.length + 1 := by
    rw [statesOfBeginnings, List.length_map, List.length_range]
  have aliveNodup := nodup_statesOfBeginnings fits
  have discoveredNodup : (ofWord word).toNfa.discovered.Nodup := Nfa.nodup_known _ _
  rw [toDfa, Nfa.states_toDfa]
  by_cases nothing : word = []
  · have sameSets : forall state, state ∈ (ofWord word).toNfa.discovered ↔
        state ∈ statesOfBeginnings word := by
      intro state
      rw [mem_discovered_ofWord_iff fits]
      exact or_iff_left fun dead => dead.1 nothing
    have perm := (List.perm_ext_iff_of_nodup discoveredNodup aliveNodup).mpr sameSets
    rw [if_pos nothing, perm.length_eq, beginnings, nothing]
    rfl
  · have sameSets : forall state, state ∈ (ofWord word).toNfa.discovered ↔
        state ∈ ∅ :: statesOfBeginnings word := by
      intro state
      rw [mem_discovered_ofWord_iff fits, List.mem_cons, or_comm]
      exact or_congr_left (and_iff_right nothing)
    have listedNodup := List.nodup_cons.mpr ⟨empty_not_mem_statesOfBeginnings fits, aliveNodup⟩
    have perm := (List.perm_ext_iff_of_nodup discoveredNodup listedNodup).mpr sameSets
    rw [if_neg nothing, perm.length_eq, List.length_cons, beginnings]

end States

/-! ## The text from end to end -/

theorem length_origins_ofText_lt {text : String} (short : text.length < 2 ^ 31) :
    (ofText text).origins.length < UInt32.size := by
  rw [ofText]
  by_cases nothing : text.toList = []
  · rw [nothing]
    decide
  · rw [length_origins_ofWord nothing]
    have size : UInt32.size = 2 * 2 ^ 31 := by decide
    have sameLength : text.toList.length = text.length := String.length_toList
    omega

/-- The pattern of a text matches the text alone and is written as the text.  Its deterministic
automaton has a state for each beginning of the text and one for everything else, and where no
character has a meaning of its own, the text is read as its pattern. -/
theorem text_matched_and_read_literally (text : String) (short : text.length < 2 ^ 31) :
    (forall input, (ofText text).matchesByNfa input = true ↔ input = text) ∧
    (forall input, (ofText text).matchesByDfa input = true ↔ input = text) ∧
    (ofText text).render = text ∧
    (ofText text).toDfa.states.length = (if text = "" then 1 else text.length + 2) ∧
    ((forall character, character ∈ text.toList -> isReserved character = false) ->
      parse text = .ok (ofText text)) := by
  have fits := length_origins_ofText_lt short
  have literally : forall input : String, (ofText text).Matches input.toList ↔ input = text :=
    fun input => matches_ofWord_iff.trans String.toList_inj
  refine ⟨fun input => (accepts_toNfa fits input.toList).trans (literally input),
    fun input => (accepts_toDfa fits input.toList).trans (literally input), render_ofText text,
    ?_, parse_eq_ofText⟩
  rw [ofText, length_states_toDfa_ofWord fits, String.length_toList]
  simp only [String.toList_eq_nil_iff]

theorem text_matched_and_read_abaab :
    "abaab".length < 2 ^ 31 ∧
      (ofText "abaab").matchesByDfa "abaab" = true ∧
      (ofText "abaab").toDfa.states.length = 7 ∧
      (forall character, character ∈ "abaab".toList -> isReserved character = false) ∧
      parse "abaab" = .ok (ofText "abaab") := by
  have short : "abaab".length < 2 ^ 31 := by decide
  have plain : forall character, character ∈ "abaab".toList -> isReserved character = false := by
    simp [isReserved]
  rcases text_matched_and_read_literally "abaab" short with ⟨_, byDfa, _, states, reads⟩
  exact ⟨short, (byDfa "abaab").mpr rfl, states, plain, reads plain⟩

end Pattern
end FiniteAutomata
