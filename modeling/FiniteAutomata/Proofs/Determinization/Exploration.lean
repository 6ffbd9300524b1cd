import FiniteAutomata.Determinization.Exploration

namespace FiniteAutomata

/-!
# What an exploration has found when it ends

The known sets only ever grow at their end, while an ever longer part of them
has been expanded.  Two facts are kept by every expansion: the rules are those of
the expanded sets, in the same order, and the targets of these rules are known.
When no set waits any more, all known sets have been expanded.  The rules then
say for every known set and every character of the alphabet where the character
leads, and they do not lead out of the known sets.
-/

namespace Exploration

variable {nfa : Nfa}

/-! ## Following characters from a set -/

/-- What following `characters` from `source` makes of an exploration. -/
structure Follows (nfa : Nfa) (source : StateSet) (characters : List Char)
    (before after : Exploration) : Prop where
  expanded_eq : after.expanded = before.expanded
  rules_eq : after.rules = before.rules ++
    characters.map fun character => ⟨source, character, nfa.advance source character⟩
  known_prefix : before.known <+: after.known
  target_known : forall character, character ∈ characters ->
    nfa.advance source character ∈ after.known
  known_cases : forall state, state ∈ after.known ->
    state ∈ before.known ∨ exists character, character ∈ characters ∧
      nfa.advance source character = state

theorem Follows.nothing (source : StateSet) (exploration : Exploration) :
    Follows nfa source [] exploration exploration where
  expanded_eq := rfl
  rules_eq := (List.append_nil exploration.rules).symm
  known_prefix := List.prefix_rfl
  target_known := fun _ member => absurd member List.not_mem_nil
  known_cases := fun _ known => Or.inl known

theorem Follows.append {source : StateSet} {first second : List Char}
    {before middle after : Exploration} (earlier : Follows nfa source first before middle)
    (later : Follows nfa source second middle after) :
    Follows nfa source (first ++ second) before after where
  expanded_eq := later.expanded_eq.trans earlier.expanded_eq
  rules_eq := by
    rw [later.rules_eq, earlier.rules_eq, List.map_append, List.append_assoc]
  known_prefix := earlier.known_prefix.trans later.known_prefix
  target_known := by
    intro character member
    rcases List.mem_append.mp member with inFirst | inSecond
    · exact later.known_prefix.subset (earlier.target_known character inFirst)
    · exact later.target_known character inSecond
  known_cases := by
    intro state known
    rcases later.known_cases state known with knownBefore | ⟨character, member, reached⟩
    · rcases earlier.known_cases state knownBefore with knownFirst | reachedFirst
      · exact Or.inl knownFirst
      · rcases reachedFirst with ⟨character, member, reached⟩
        exact Or.inr ⟨character, List.mem_append.mpr (Or.inl member), reached⟩
    · exact Or.inr ⟨character, List.mem_append.mpr (Or.inr member), reached⟩

theorem follow_of_known {source : StateSet} {exploration : Exploration} {character : Char}
    (isKnown : nfa.advance source character ∈ exploration.known) :
    follow nfa source exploration character =
      { exploration with
        rules := exploration.rules ++ [⟨source, character, nfa.advance source character⟩] } := by
  rw [follow, if_pos isKnown]

theorem follow_of_unknown {source : StateSet} {exploration : Exploration} {character : Char}
    (unknown : ¬ nfa.advance source character ∈ exploration.known) :
    follow nfa source exploration character =
      { exploration with
        rules := exploration.rules ++ [⟨source, character, nfa.advance source character⟩]
        pending := exploration.pending ++ [nfa.advance source character]
        discoveries := exploration.discoveries ++
          [⟨nfa.advance source character, source, character⟩] } := by
  rw [follow, if_neg unknown]

theorem follow_follows (source : StateSet) (exploration : Exploration) (character : Char) :
    Follows nfa source [character] exploration
      (follow nfa source exploration character) := by
  by_cases isKnown : nfa.advance source character ∈ exploration.known
  · rw [follow_of_known isKnown]
    refine ⟨rfl, rfl, List.prefix_rfl, ?_, fun _ known => Or.inl known⟩
    intro other member
    exact List.mem_singleton.mp member ▸ isKnown
  · rw [follow_of_unknown isKnown]
    have appended : exploration.expanded ++
        (exploration.pending ++ [nfa.advance source character]) =
          exploration.known ++ [nfa.advance source character] :=
      (List.append_assoc _ _ _).symm
    refine ⟨rfl, rfl, ⟨_, appended.symm⟩, ?_, ?_⟩
    · intro other member
      rw [List.mem_singleton.mp member, known, appended]
      exact List.mem_append.mpr (Or.inr List.mem_cons_self)
    · intro state isListed
      rw [known, appended] at isListed
      rcases List.mem_append.mp isListed with knownBefore | isTarget
      · exact Or.inl knownBefore
      · have same := List.mem_singleton.mp isTarget
        exact Or.inr ⟨character, List.mem_cons_self, same.symm⟩

theorem foldl_follow_follows (source : StateSet) (characters : List Char)
    (exploration : Exploration) :
    Follows nfa source characters exploration
      (characters.foldl (follow nfa source) exploration) := by
  induction characters generalizing exploration with
  | nil => exact Follows.nothing source exploration
  | cons character later inductionHypothesis =>
    exact (follow_follows source exploration character).append (inductionHypothesis _)

/-! ## Expanding sets -/

theorem step?_eq_none {exploration : Exploration}
    (stopped : exploration.step? nfa = none) : exploration.pending = [] := by
  unfold step? at stopped
  split at stopped
  · next noneWaits => exact noneWaits
  · cases stopped

/-- A step expands the set that has waited longest. -/
theorem step?_cases {exploration next : Exploration}
    (stepped : exploration.step? nfa = some next) :
    exists current later, exploration.pending = current :: later ∧
      Follows nfa current nfa.alphabet.toList
        { exploration with
          expanded := exploration.expanded ++ [current]
          pending := later } next := by
  unfold step? at stepped
  split at stepped
  · cases stepped
  · next current later waits =>
    cases stepped
    exact ⟨current, later, waits, foldl_follow_follows current _ _⟩

/-- Moving the set that has waited longest to those that are expanded does not change what
is known. -/
theorem known_of_waits {exploration : Exploration} {current : StateSet} {later : List StateSet}
    (waits : exploration.pending = current :: later) :
    exploration.expanded ++ [current] ++ later = exploration.known := by
  rw [known, waits, List.append_assoc]
  rfl

/-- The rules are those of the expanded sets, and none leads to an unknown set. -/
structure Coherent (nfa : Nfa) (exploration : Exploration) : Prop where
  rules_eq : exploration.rules = exploration.expanded.flatMap nfa.rulesOf
  target_known : forall state, state ∈ exploration.expanded ->
    forall character, character ∈ nfa.alphabet ->
      nfa.advance state character ∈ exploration.known

theorem known_prefix_step {exploration next : Exploration}
    (stepped : exploration.step? nfa = some next) : exploration.known <+: next.known := by
  rcases step?_cases stepped with ⟨current, later, waits, follows⟩
  rw [← known_of_waits waits]
  exact follows.known_prefix

theorem Coherent.begin (nfa : Nfa) (seeds : List StateSet) :
    (Exploration.begin seeds).Coherent nfa :=
  ⟨rfl, fun _ member => absurd member List.not_mem_nil⟩

theorem Coherent.step {exploration next : Exploration} (coherent : exploration.Coherent nfa)
    (stepped : exploration.step? nfa = some next) : next.Coherent nfa := by
  have grown := known_prefix_step stepped
  rcases step?_cases stepped with ⟨current, later, _, follows⟩
  constructor
  · rw [follows.rules_eq, follows.expanded_eq, coherent.rules_eq, List.flatMap_append,
      List.flatMap_singleton]
    rfl
  · intro state isExpanded character inAlphabet
    rw [follows.expanded_eq] at isExpanded
    rcases List.mem_append.mp isExpanded with wasExpanded | isCurrent
    · exact grown.subset (coherent.target_known state wasExpanded character inAlphabet)
    · rw [List.mem_singleton.mp isCurrent]
      exact follows.target_known character inAlphabet

theorem pending_run (nfa : Nfa) (exploration : Exploration) :
    (exploration.run nfa).pending = [] := by
  fun_induction run nfa exploration with
  | case1 exploration stopped => exact step?_eq_none stopped
  | case2 exploration next stepped inductionHypothesis => exact inductionHypothesis

theorem Coherent.run {exploration : Exploration} (coherent : exploration.Coherent nfa) :
    (exploration.run nfa).Coherent nfa := by
  fun_induction Exploration.run nfa exploration with
  | case1 exploration stopped => exact coherent
  | case2 exploration next stepped inductionHypothesis =>
    exact inductionHypothesis (coherent.step stepped)

theorem known_prefix_run (nfa : Nfa) (exploration : Exploration) :
    exploration.known <+: (exploration.run nfa).known := by
  fun_induction run nfa exploration with
  | case1 exploration stopped => exact List.prefix_rfl
  | case2 exploration next stepped inductionHypothesis =>
    exact (known_prefix_step stepped).trans inductionHypothesis

theorem holds_foldl_follow {holds : Exploration -> Prop} {source : StateSet}
    (followed : forall exploration character, source ∈ exploration.known ->
      holds exploration -> holds (follow nfa source exploration character))
    {exploration : Exploration} (sourceKnown : source ∈ exploration.known)
    (initiallyHolds : holds exploration) (characters : List Char) :
    holds (characters.foldl (follow nfa source) exploration) := by
  induction characters generalizing exploration with
  | nil => exact initiallyHolds
  | cons character later inductionHypothesis =>
    have follows : Follows nfa source [character] exploration _ :=
      follow_follows source exploration character
    exact inductionHypothesis (follows.known_prefix.subset sourceKnown)
      (followed exploration character sourceKnown initiallyHolds)

/-- Whatever is preserved when the expansion of a set begins, and when a character is followed
from a known set, holds when the exploration has ended. -/
theorem holds_run {holds : Exploration -> Prop}
    (begun : forall exploration current later, exploration.pending = current :: later ->
      holds exploration -> holds { exploration with
        expanded := exploration.expanded ++ [current]
        pending := later })
    (followed : forall source exploration character, source ∈ exploration.known ->
      holds exploration -> holds (follow nfa source exploration character))
    {exploration : Exploration} (initiallyHolds : holds exploration) :
    holds (exploration.run nfa) := by
  fun_induction run nfa exploration with
  | case1 exploration stopped => exact initiallyHolds
  | case2 exploration next stepped inductionHypothesis =>
    apply inductionHypothesis
    unfold step? at stepped
    split at stepped
    · cases stepped
    · next current later waits =>
      cases stepped
      apply holds_foldl_follow (followed current)
      · exact List.mem_append_left _ (List.mem_append_right _ List.mem_cons_self)
      · exact begun exploration current later waits initiallyHolds

/-- A property of the known sets that reading a character preserves holds of all
sets that are found. -/
theorem holds_of_mem_known_run {holds : StateSet -> Prop} {exploration : Exploration}
    (preserved : forall state character, holds state -> character ∈ nfa.alphabet ->
      holds (nfa.advance state character))
    (initiallyHold : forall state, state ∈ exploration.known -> holds state) :
    forall state, state ∈ (exploration.run nfa).known -> holds state := by
  fun_induction run nfa exploration with
  | case1 exploration stopped => exact initiallyHold
  | case2 exploration next stepped inductionHypothesis =>
    apply inductionHypothesis
    intro state isKnown
    rcases step?_cases stepped with ⟨current, later, waits, follows⟩
    have currentKnown : current ∈ exploration.known := by
      rw [known, waits]
      exact List.mem_append.mpr (Or.inr List.mem_cons_self)
    rcases follows.known_cases state isKnown with wasKnown | ⟨character, inAlphabet, reached⟩
    · apply initiallyHold
      rw [← known_of_waits waits]
      exact wasKnown
    · rw [← reached]
      exact preserved current character (initiallyHold current currentKnown) inAlphabet

end Exploration

namespace Nfa

/-! ## The whole exploration -/

/-- Nothing waits at the end, so all known sets have been expanded. -/
theorem expanded_explore (nfa : Nfa) (seeds : List StateSet) :
    (nfa.explore seeds).expanded = (nfa.explore seeds).known := by
  have noneWaits : (nfa.explore seeds).pending = [] := Exploration.pending_run nfa _
  rw [Exploration.known, noneWaits, List.append_nil]

/-- The rules are those of the known sets, in the order in which these were found. -/
theorem rules_explore (nfa : Nfa) (seeds : List StateSet) :
    (nfa.explore seeds).rules = (nfa.explore seeds).known.flatMap nfa.rulesOf := by
  rw [← expanded_explore]
  exact (Exploration.Coherent.begin nfa seeds).run.rules_eq

/-- There is a rule for every known set and every character of the alphabet, and no
other. -/
theorem mem_rules_explore {nfa : Nfa} {seeds : List StateSet} {state target : StateSet}
    {character : Char} :
    ⟨state, character, target⟩ ∈ (nfa.explore seeds).rules ↔
      state ∈ (nfa.explore seeds).known ∧ character ∈ nfa.alphabet ∧
        nfa.advance state character = target := by
  rw [rules_explore, List.mem_flatMap]
  constructor
  · intro inRules
    rcases inRules with ⟨source, isKnown, listed⟩
    rcases List.mem_map.mp listed with ⟨read, inAlphabet, same⟩
    cases same
    exact ⟨isKnown, inAlphabet, rfl⟩
  · rintro ⟨isKnown, inAlphabet, reached⟩
    refine ⟨state, isKnown, List.mem_map.mpr ⟨character, inAlphabet, ?_⟩⟩
    rw [reached]

theorem advance_mem_known {nfa : Nfa} {seeds : List StateSet} {state : StateSet}
    {character : Char} (isKnown : state ∈ (nfa.explore seeds).known)
    (inAlphabet : character ∈ nfa.alphabet) :
    nfa.advance state character ∈ (nfa.explore seeds).known := by
  rw [← expanded_explore] at isKnown
  exact (Exploration.Coherent.begin nfa seeds).run.target_known state isKnown
    character inAlphabet

theorem seeds_prefix_known (nfa : Nfa) (seeds : List StateSet) :
    seeds.eraseDups <+: (nfa.explore seeds).known :=
  Exploration.known_prefix_run nfa (Exploration.begin seeds)

/-- A property of the seeds that reading a character preserves holds of all sets
that are found. -/
theorem holds_of_mem_known {nfa : Nfa} {holds : StateSet -> Prop} {seeds : List StateSet}
    (preserved : forall state character, holds state -> character ∈ nfa.alphabet ->
      holds (nfa.advance state character))
    (seedsHold : forall state, state ∈ seeds -> holds state) :
    forall state, state ∈ (nfa.explore seeds).known -> holds state := by
  apply Exploration.holds_of_mem_known_run preserved
  intro state isKnown
  exact seedsHold state (List.mem_eraseDups.mp isKnown)

end Nfa
end FiniteAutomata
