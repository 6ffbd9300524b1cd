import FiniteAutomata.Proofs.Nfa.Reachability
import FiniteAutomata.Renumbering

namespace FiniteAutomata
namespace Nfa

/-!
# Renumbered states on the way through a run

A path of an automaton is a path of the renumbered one, and a renumbered path that
begins at a state of the automaton comes from one of its own.  The states of a run are
therefore renumbered along with the automaton, after any word, and so are closures and
what a single character leads to.  Acceptance does not depend on the numbers.
-/

namespace Renumbers

variable {nfa renumbered : Nfa} {rename : StateId -> StateId}

/-! ## Paths -/

theorem mem_moves_of_mem (renumbers : Renumbers rename nfa renumbered) {source target : StateId}
    {symbol : Symbol} (listed : ⟨source, symbol, target⟩ ∈ nfa.moves) :
    ⟨rename source, symbol, rename target⟩ ∈ renumbered.moves :=
  (renumbers.mem_moves _).mpr ⟨_, listed, rfl⟩

/-- A renumbered move that leaves a state comes from a move that leaves this state. -/
theorem exists_move (renumbers : Renumbers rename nfa renumbered) {source named : StateId}
    {symbol : Symbol} (isState : source ∈ nfa.states)
    (listed : ⟨rename source, symbol, named⟩ ∈ renumbered.moves) :
    exists target, rename target = named ∧ target ∈ nfa.states ∧
      ⟨source, symbol, target⟩ ∈ nfa.moves := by
  rcases (renumbers.mem_moves _).mp listed with ⟨⟨origin, read, target⟩, original, same⟩
  simp only [Transition.mapStates, Transition.mk.injEq] at same
  rcases same with ⟨sameSource, rfl, reached⟩
  have sameOrigin := renumbers.injective origin source (source_mem_states original) isState
    sameSource
  rw [sameOrigin] at original
  exact ⟨target, reached, target_mem_states original, original⟩

theorem path (renumbers : Renumbers rename nfa renumbered) {source target : StateId} {word : Word}
    (path : nfa.Path source word target) :
    renumbered.Path (rename source) word (rename target) := by
  induction path with
  | stay state => exact Path.stay (rename state)
  | free listed _ inductionHypothesis =>
    exact Path.free (renumbers.mem_moves_of_mem listed) inductionHypothesis
  | read listed _ inductionHypothesis =>
    exact Path.read (renumbers.mem_moves_of_mem listed) inductionHypothesis

/-- A renumbered path that begins at a state comes from a path that begins there. -/
theorem exists_path (renumbers : Renumbers rename nfa renumbered) {first named : StateId}
    {word : Word} (path : renumbered.Path first word named) {source : StateId}
    (isState : source ∈ nfa.states) (begins : rename source = first) :
    exists target, rename target = named ∧ nfa.Path source word target := by
  induction path generalizing source with
  | stay state => exact ⟨source, begins, Path.stay source⟩
  | free listed _ inductionHypothesis =>
    rw [← begins] at listed
    rcases renumbers.exists_move isState listed with ⟨middle, reached, middleIsState, move⟩
    rcases inductionHypothesis middleIsState reached with ⟨target, ends, later⟩
    exact ⟨target, ends, Path.free move later⟩
  | read listed _ inductionHypothesis =>
    rw [← begins] at listed
    rcases renumbers.exists_move isState listed with ⟨middle, reached, middleIsState, move⟩
    rcases inductionHypothesis middleIsState reached with ⟨target, ends, later⟩
    exact ⟨target, ends, Path.read move later⟩

/-! ## Runs -/

/-- After any word the states of a run are the renumbered ones. -/
theorem closure_readWord (renumbers : Renumbers rename nfa renumbered) {states : StateSet}
    (within : states ⊆ nfa.states) (word : Word) :
    renumbered.closure (renumbered.readWord (states.image rename) word) =
      (nfa.closure (nfa.readWord states word)).image rename := by
  ext named
  rw [mem_closure_readWord_iff_path, SortedSet.mem_image]
  constructor
  · rintro ⟨first, begins, path⟩
    rcases SortedSet.mem_image.mp begins with ⟨source, member, rfl⟩
    rcases renumbers.exists_path path (within source member) rfl with ⟨target, ends, original⟩
    exact ⟨target, mem_closure_readWord_iff_path.mpr ⟨source, member, original⟩, ends⟩
  · rintro ⟨target, reached, rfl⟩
    rcases mem_closure_readWord_iff_path.mp reached with ⟨source, member, original⟩
    exact ⟨rename source, SortedSet.mem_image.mpr ⟨source, member, rfl⟩, renumbers.path original⟩

theorem initial_eq (renumbers : Renumbers rename nfa renumbered) :
    renumbered.initial = nfa.initial.image rename := by
  ext named
  simp [initial, renumbers.start_eq, eq_comm]

/-- Whether an accepting state has been reached does not depend on the numbers. -/
theorem intersects_accepting (renumbers : Renumbers rename nfa renumbered) {states : StateSet}
    (within : states ⊆ nfa.states) :
    (states.image rename).intersects renumbered.accepting = states.intersects nfa.accepting := by
  rw [Bool.eq_iff_iff, SortedSet.intersects_eq_true, SortedSet.intersects_eq_true,
    renumbers.accepting_eq]
  constructor
  · rintro ⟨named, reached, accepted⟩
    rcases SortedSet.mem_image.mp reached with ⟨state, member, rfl⟩
    rcases SortedSet.mem_image.mp accepted with ⟨other, isAccepting, same⟩
    have sameState := renumbers.injective other state (mem_states_of_mem_accepting isAccepting)
      (within state member) same
    exact ⟨state, member, sameState ▸ isAccepting⟩
  · rintro ⟨state, member, isAccepting⟩
    exact ⟨rename state, SortedSet.mem_image.mpr ⟨state, member, rfl⟩,
      SortedSet.mem_image.mpr ⟨state, isAccepting, rfl⟩⟩

/-- Both automata accept the same words. -/
theorem accepts_eq (renumbers : Renumbers rename nfa renumbered) (word : Word) :
    renumbered.accepts word = nfa.accepts word := by
  rw [accepts, accepts, isAccepting, isAccepting, renumbers.initial_eq,
    renumbers.closure_readWord (initial_subset_states nfa)]
  exact renumbers.intersects_accepting
    (closure_readWord_subset_states (initial_subset_states nfa) word)

theorem alphabet_eq (renumbers : Renumbers rename nfa renumbered) :
    renumbered.alphabet = nfa.alphabet := by
  ext character
  rw [alphabet, alphabet, SortedSet.mem_ofList, SortedSet.mem_ofList, List.mem_filterMap,
    List.mem_filterMap]
  constructor
  · rintro ⟨move, listed, reads⟩
    rcases (renumbers.mem_moves move).mp listed with ⟨original, isMove, rfl⟩
    exact ⟨original, isMove, reads⟩
  · rintro ⟨original, isMove, reads⟩
    exact ⟨original.mapStates rename, (renumbers.mem_moves _).mpr ⟨original, isMove, rfl⟩, reads⟩

end Renumbers
end Nfa
end FiniteAutomata
