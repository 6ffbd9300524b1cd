import FiniteAutomata.Proofs.Determinization.Discovery
import FiniteAutomata.Proofs.Nfa.Renumbering

namespace FiniteAutomata

/-!
# Determinization does not look at the numbers

Two explorations run in step if the sets of one are carried to the sets of the other by
a function that is injective where the first exploration goes and that agrees with
reading a character.  Then a set is known to one exactly if its image is known to the
other, so both append the same sets at the same moment, and what one has recorded is
at any time the image of what the other has.

Renumbering the states of an automaton is such a function.  Neither the order of the
numbers nor the order or repetition of moves shows in the deterministic automaton,
because a set of states is determined by its members.
-/

/-! ## Explorations in step -/

def Discovery.mapStates (rename : StateSet -> StateSet) (discovery : Discovery) : Discovery :=
  ⟨rename discovery.state, rename discovery.source, discovery.symbol⟩

namespace Exploration

variable {first second : Nfa} {within : StateSet -> Prop} {rename : StateSet -> StateSet}

def mapStates (rename : StateSet -> StateSet) (exploration : Exploration) : Exploration where
  expanded := exploration.expanded.map rename
  pending := exploration.pending.map rename
  rules := exploration.rules.map (Transition.mapStates rename)
  discoveries := exploration.discoveries.map (Discovery.mapStates rename)

theorem known_mapStates (rename : StateSet -> StateSet) (exploration : Exploration) :
    (exploration.mapStates rename).known = exploration.known.map rename := by
  simp [known, mapStates]

/-- Every known set satisfies `within`. -/
def KnownWithin (within : StateSet -> Prop) (exploration : Exploration) : Prop :=
  forall state, state ∈ exploration.known -> within state

/-- Reading a character carries over from one automaton to the other, as long as the sets
satisfy `within`, and different ones of them are carried to different sets. -/
structure Carries (first second : Nfa) (within : StateSet -> Prop)
    (rename : StateSet -> StateSet) : Prop where
  alphabet_eq : second.alphabet = first.alphabet
  advance_within : forall state character, within state -> within (first.advance state character)
  advance_eq : forall state character, within state ->
    second.advance (rename state) character = rename (first.advance state character)
  injective : forall state other, within state -> within other ->
    rename state = rename other -> state = other

theorem run_of_step?_eq_none {nfa : Nfa} {exploration : Exploration}
    (stopped : exploration.step? nfa = none) : exploration.run nfa = exploration := by
  unfold run
  split
  · rfl
  · next stepped => rw [stopped] at stepped; cases stepped

theorem run_of_step?_eq_some {nfa : Nfa} {exploration next : Exploration}
    (stepped : exploration.step? nfa = some next) : exploration.run nfa = next.run nfa := by
  rw [run]
  split
  · next stopped => rw [stepped] at stopped; cases stopped
  · next other otherwise => rw [stepped] at otherwise; cases otherwise; rfl

namespace Carries

variable {exploration : Exploration} {source : StateSet}

/-! ### What is found stays within the sets that are carried over -/

theorem within_follows (carries : Carries first second within rename)
    {before after : Exploration} {characters : List Char}
    (follows : Follows first source characters before after)
    (knownWithin : before.KnownWithin within) (sourceWithin : within source) :
    after.KnownWithin within := by
  intro state isKnown
  rcases follows.known_cases state isKnown with wasKnown | ⟨character, _, reached⟩
  · exact knownWithin state wasKnown
  · exact reached ▸ carries.advance_within source character sourceWithin

theorem within_step (carries : Carries first second within rename) {next : Exploration}
    (stepped : exploration.step? first = some next)
    (knownWithin : exploration.KnownWithin within) : next.KnownWithin within := by
  rcases step?_cases stepped with ⟨current, later, waits, follows⟩
  rw [KnownWithin, known, waits] at knownWithin
  apply carries.within_follows follows
  · simpa [KnownWithin, known] using knownWithin
  · exact knownWithin current (by simp)

/-! ### Both explorations do the same -/

theorem mem_known_iff (carries : Carries first second within rename)
    (knownWithin : exploration.KnownWithin within) {state : StateSet} (isWithin : within state) :
    rename state ∈ (exploration.mapStates rename).known ↔ state ∈ exploration.known := by
  rw [known_mapStates, List.mem_map]
  constructor
  · rintro ⟨other, isKnown, same⟩
    rwa [← carries.injective other state (knownWithin other isKnown) isWithin same]
  · intro isKnown
    exact ⟨state, isKnown, rfl⟩

theorem follow (carries : Carries first second within rename)
    (knownWithin : exploration.KnownWithin within) (sourceWithin : within source)
    (character : Char) :
    Exploration.follow second (rename source) (exploration.mapStates rename) character =
      (Exploration.follow first source exploration character).mapStates rename := by
  have advanced := carries.advance_eq source character sourceWithin
  have sameKnown := carries.mem_known_iff knownWithin
    (carries.advance_within source character sourceWithin)
  by_cases isKnown : first.advance source character ∈ exploration.known
  · have isKnownToo := sameKnown.mpr isKnown
    rw [← advanced] at isKnownToo
    rw [follow_of_known isKnown, follow_of_known isKnownToo]
    simp [mapStates, Transition.mapStates, advanced]
  · have isNewToo := fun known => isKnown (sameKnown.mp known)
    rw [← advanced] at isNewToo
    rw [follow_of_unknown isKnown, follow_of_unknown isNewToo]
    simp [mapStates, Transition.mapStates, Discovery.mapStates, advanced]

theorem foldl_follow (carries : Carries first second within rename)
    (knownWithin : exploration.KnownWithin within) (sourceWithin : within source)
    (characters : List Char) :
    characters.foldl (Exploration.follow second (rename source)) (exploration.mapStates rename) =
      (characters.foldl (Exploration.follow first source) exploration).mapStates rename := by
  induction characters generalizing exploration with
  | nil => rfl
  | cons character later inductionHypothesis =>
    rw [List.foldl_cons, List.foldl_cons, carries.follow knownWithin sourceWithin]
    apply inductionHypothesis
    exact carries.within_follows (follow_follows source exploration character) knownWithin
      sourceWithin

theorem step? (carries : Carries first second within rename)
    (knownWithin : exploration.KnownWithin within) :
    (exploration.mapStates rename).step? second =
      (exploration.step? first).map (mapStates rename) := by
  rcases exploration with ⟨expanded, pending, rules, discoveries⟩
  cases pending with
  | nil => rfl
  | cons current later =>
    have sameKnown : KnownWithin within ⟨expanded ++ [current], later, rules, discoveries⟩ := by
      simpa [KnownWithin, known] using knownWithin
    have currentWithin := knownWithin current (by simp [known])
    have inStep := carries.foldl_follow sameKnown currentWithin first.alphabet.toList
    simpa [Exploration.step?, mapStates, carries.alphabet_eq] using inStep

/-- The explorations stay in step until both end. -/
theorem run (carries : Carries first second within rename)
    (knownWithin : exploration.KnownWithin within) :
    (exploration.mapStates rename).run second = (exploration.run first).mapStates rename := by
  fun_induction Exploration.run first exploration with
  | case1 exploration stopped =>
    have stoppedToo := carries.step? knownWithin
    rw [stopped] at stoppedToo
    exact run_of_step?_eq_none stoppedToo
  | case2 exploration next stepped inductionHypothesis =>
    have steppedToo := carries.step? knownWithin
    rw [stepped] at steppedToo
    rw [run_of_step?_eq_some steppedToo]
    exact inductionHypothesis (carries.within_step stepped knownWithin)

theorem explore (carries : Carries first second within rename) (sourceWithin : within source) :
    second.explore [rename source] = (first.explore [source]).mapStates rename := by
  have begins : begin [rename source] = (begin [source]).mapStates rename := by
    simp [begin, mapStates, List.eraseDups_cons]
  rw [Nfa.explore, begins]
  apply carries.run
  simpa [KnownWithin, begin, known] using sourceWithin

end Carries
end Exploration

/-! ## The renumbered automaton -/

namespace Nfa

namespace Renumbers

variable {nfa renumbered : Nfa} {rename : StateId -> StateId}

/-- The sets of the renumbered automaton are the images of the sets of the other one. -/
theorem carries (renumbers : Renumbers rename nfa renumbered) :
    Exploration.Carries nfa renumbered (fun state => state ⊆ nfa.states)
      (SortedSet.image rename) where
  alphabet_eq := renumbers.alphabet_eq
  advance_within := fun _ character within => closure_readWord_subset_states within [character]
  advance_eq := fun _ character within => renumbers.closure_readWord within [character]
  injective := fun _ _ => SortedSet.image_injective renumbers.injective

theorem start_toDfa (renumbers : Renumbers rename nfa renumbered) :
    renumbered.toDfa.start = nfa.toDfa.start.image rename := by
  change renumbered.closure renumbered.initial = (nfa.closure nfa.initial).image rename
  rw [renumbers.initial_eq]
  exact renumbers.closure_readWord (initial_subset_states nfa) []

theorem explore_eq (renumbers : Renumbers rename nfa renumbered) :
    renumbered.explore [renumbered.toDfa.start] =
      (nfa.explore [nfa.toDfa.start]).mapStates (SortedSet.image rename) := by
  rw [renumbers.start_toDfa]
  exact renumbers.carries.explore (closure_readWord_subset_states (initial_subset_states nfa) [])

theorem discovered_eq (renumbers : Renumbers rename nfa renumbered) :
    renumbered.discovered = nfa.discovered.map (SortedSet.image rename) := by
  have known := congrArg Exploration.known renumbers.explore_eq
  rwa [Exploration.known_mapStates] at known

theorem accepting_toDfa (renumbers : Renumbers rename nfa renumbered) :
    renumbered.toDfa.accepting = nfa.toDfa.accepting.map (SortedSet.image rename) := by
  rw [Nfa.accepting_toDfa, Nfa.accepting_toDfa, renumbers.discovered_eq, List.filter_map]
  congr 1
  apply List.filter_congr
  intro state isDiscovered
  exact renumbers.intersects_accepting (subset_states_of_mem_discovered isDiscovered)

theorem toDfa_eq (renumbers : Renumbers rename nfa renumbered) :
    renumbered.toDfa = nfa.toDfa.mapStates (SortedSet.image rename) := by
  have sameRules := congrArg Exploration.rules renumbers.explore_eq
  have sameTable : renumbered.toDfa.table =
      ⟨nfa.toDfa.table.rules.map (Transition.mapStates (SortedSet.image rename))⟩ :=
    congrArg Table.mk sameRules
  rw [Dfa.mapStates, ← renumbers.start_toDfa, ← renumbers.accepting_toDfa, ← sameTable]

end Renumbers

/-- Of an automaton and its renumbering come deterministic automata that differ in the
numbers within their sets and in nothing else: states, accepting states and rules stand in
the same order, with the same characters, and the same words are accepted.  In which order,
and how often, the moves are listed makes no difference either. -/
theorem determinization_ignores_numbering {nfa renumbered : Nfa} {rename : StateId -> StateId}
    (renumbers : Renumbers rename nfa renumbered) :
    renumbered.toDfa = nfa.toDfa.mapStates (SortedSet.image rename) ∧
    renumbered.toDfa.states = nfa.toDfa.states.map (SortedSet.image rename) ∧
    (forall word : Word, renumbered.accepts word = nfa.accepts word) ∧
    (forall word : Word, renumbered.toDfa.accepts word = nfa.toDfa.accepts word) := by
  refine ⟨renumbers.toDfa_eq, ?_, renumbers.accepts_eq, fun word => ?_⟩
  · rw [states_toDfa, states_toDfa, renumbers.discovered_eq]
  · rw [accepts_toDfa, accepts_toDfa, renumbers.accepts_eq]

/-- The automaton `freeCycle` with its states numbered downwards from 9.  The moves are
listed in another order and one of them repeatedly. -/
def renumberedCycle : Nfa where
  start := 9
  accepting := SortedSet.ofList [7]
  moves := [.reading 7 'b' 9, .reading 8 'a' 7, .free 8 9, .reading 8 'a' 7, .free 9 8]

theorem determinization_ignores_numbering_freeCycle :
    Renumbers (fun state => 9 - state) freeCycle renumberedCycle ∧
      renumberedCycle.toDfa =
        freeCycle.toDfa.mapStates (SortedSet.image fun state => 9 - state) := by
  have renumbers : Renumbers (fun state => 9 - state) freeCycle renumberedCycle := by
    refine ⟨?_, rfl, by decide +kernel, fun move => ⟨?_, ?_⟩⟩
    · intro first second _ _ same
      simpa using same
    · revert move
      decide +kernel
    · rintro ⟨original, listed, rfl⟩
      revert original
      decide +kernel
  exact ⟨renumbers, (determinization_ignores_numbering renumbers).1⟩

end Nfa
end FiniteAutomata
