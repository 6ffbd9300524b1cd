import FiniteAutomata.Proofs.Nfa.Closure

namespace FiniteAutomata
namespace Nfa

/-!
# Runs follow all paths at once

After a word, the closed set of states of a run holds exactly the states to which
a path that reads the word leads from one of the states in which the run began.
Acceptance is therefore the existence of a path to an accepting state.  On a
character that no move reads a run loses all its states for good.
-/

variable {nfa : Nfa}

/-! ## Paths -/

/-- What a path does depends on the moves alone, and more moves leave more paths. -/
theorem Path.of_moves_subset {part whole : Nfa}
    (included : forall move, move ∈ part.moves -> move ∈ whole.moves)
    {source target : StateId} {word : Word} (path : part.Path source word target) :
    whole.Path source word target := by
  induction path with
  | stay state => exact Path.stay state
  | free listed _ inductionHypothesis =>
    exact Path.free (included _ listed) inductionHypothesis
  | read listed _ inductionHypothesis =>
    exact Path.read (included _ listed) inductionHypothesis

/-- A path that reads something takes free moves until it reads the first
character. -/
theorem Path.first_read {source target : StateId} {word rest : Word} {character : Char}
    (path : nfa.Path source word target) (spelled : word = character :: rest) :
    exists before after, nfa.Path source [] before ∧
      Transition.reading before character after ∈ nfa.moves ∧ nfa.Path after rest target := by
  induction path with
  | stay state => cases spelled
  | free listed _ inductionHypothesis =>
    rcases inductionHypothesis spelled with ⟨before, after, leading, reads, remaining⟩
    exact ⟨before, after, Path.free listed leading, reads, remaining⟩
  | read listed path _ =>
    cases spelled
    exact ⟨_, _, Path.stay _, listed, path⟩

/-- A path that begins in a state of the automaton does not leave these states. -/
theorem Path.mem_states {source target : StateId} {word : Word}
    (path : nfa.Path source word target) (isState : source ∈ nfa.states) :
    target ∈ nfa.states := by
  induction path with
  | stay state => exact isState
  | free listed _ inductionHypothesis => exact inductionHypothesis (target_mem_states listed)
  | read listed _ inductionHypothesis => exact inductionHypothesis (target_mem_states listed)

/-! ## Runs -/

/-- After one character a run is where a single move on it leads from the closure. -/
theorem mem_read {states : StateSet} {character : Char} {target : StateId} :
    target ∈ nfa.read states character ↔
      exists source, source ∈ nfa.closure states ∧
        Transition.reading source character target ∈ nfa.moves :=
  mem_step

theorem mem_closure_readWord_iff_path {states : StateSet} {word : Word} {target : StateId} :
    target ∈ nfa.closure (nfa.readWord states word) ↔
      exists source, source ∈ states ∧ nfa.Path source word target := by
  induction word generalizing states with
  | nil => exact mem_closure_iff_path
  | cons character rest inductionHypothesis =>
    change target ∈ nfa.closure (nfa.readWord (nfa.read states character) rest) ↔ _
    rw [inductionHypothesis]
    constructor
    · intro later
      rcases later with ⟨after, reached, remaining⟩
      rcases mem_read.mp reached with ⟨before, inClosure, listed⟩
      rcases mem_closure_iff_path.mp inClosure with ⟨source, member, leading⟩
      exact ⟨source, member, leading.append (Path.read listed remaining)⟩
    · intro whole
      rcases whole with ⟨source, member, path⟩
      rcases path.first_read rfl with ⟨before, after, leading, listed, remaining⟩
      have inClosure : before ∈ nfa.closure states :=
        mem_closure_iff_path.mpr ⟨source, member, leading⟩
      exact ⟨after, mem_read.mpr ⟨before, inClosure, listed⟩, remaining⟩

theorem initial_subset_states (nfa : Nfa) : nfa.initial ⊆ nfa.states := by
  intro state isStart
  exact SortedSet.mem_singleton.mp isStart ▸ start_mem_states nfa

/-- A run does not leave the states of the automaton. -/
theorem closure_readWord_subset_states {states : StateSet} (within : states ⊆ nfa.states)
    (word : Word) : nfa.closure (nfa.readWord states word) ⊆ nfa.states := by
  intro target reached
  rcases mem_closure_readWord_iff_path.mp reached with ⟨source, member, path⟩
  exact path.mem_states (within source member)

/-- A run accepts exactly if a path for what it has read ends in an accepting
state. -/
theorem isAccepting_readWord_iff_path {states : StateSet} {word : Word} :
    nfa.isAccepting (nfa.readWord states word) = true ↔
      exists source target, source ∈ states ∧ target ∈ nfa.accepting ∧
        nfa.Path source word target := by
  rw [isAccepting, SortedSet.intersects_eq_true]
  constructor
  · intro common
    rcases common with ⟨target, reached, accepted⟩
    rcases mem_closure_readWord_iff_path.mp reached with ⟨source, member, path⟩
    exact ⟨source, target, member, accepted, path⟩
  · rintro ⟨source, target, member, accepted, path⟩
    exact ⟨target, mem_closure_readWord_iff_path.mpr ⟨source, member, path⟩, accepted⟩

theorem accepts_iff_exists_path {word : Word} :
    nfa.accepts word = true ↔
      exists target, target ∈ nfa.accepting ∧ nfa.Path nfa.start word target := by
  rw [accepts, isAccepting_readWord_iff_path]
  constructor
  · rintro ⟨source, target, member, accepted, path⟩
    rw [SortedSet.mem_singleton.mp member] at path
    exact ⟨target, accepted, path⟩
  · rintro ⟨target, accepted, path⟩
    exact ⟨nfa.start, target, SortedSet.mem_singleton.mpr rfl, accepted, path⟩

/-! ## Characters outside the alphabet -/

theorem mem_alphabet_of_reading {source target : StateId} {character : Char}
    (listed : Transition.reading source character target ∈ nfa.moves) :
    character ∈ nfa.alphabet :=
  SortedSet.mem_ofList.mpr (List.mem_filterMap.mpr ⟨_, listed, rfl⟩)

/-- Only characters of the alphabet can be read along a path. -/
theorem Path.mem_alphabet {source target : StateId} {word : Word}
    (path : nfa.Path source word target) :
    forall character, character ∈ word -> character ∈ nfa.alphabet := by
  induction path with
  | stay state =>
    intro character member
    exact absurd member List.not_mem_nil
  | free _ _ inductionHypothesis => exact inductionHypothesis
  | read listed _ inductionHypothesis =>
    intro character member
    rcases List.mem_cons.mp member with same | later
    · exact same ▸ mem_alphabet_of_reading listed
    · exact inductionHypothesis character later

/-- A run that has met a character outside the alphabet is in no state. -/
theorem closure_readWord_eq_empty {states : StateSet} {word : Word} {character : Char}
    (met : character ∈ word) (foreign : ¬ character ∈ nfa.alphabet) :
    nfa.closure (nfa.readWord states word) = ∅ := by
  ext target
  constructor
  · intro reached
    rcases mem_closure_readWord_iff_path.mp reached with ⟨source, _, path⟩
    exact absurd (path.mem_alphabet character met) foreign
  · intro inEmpty
    exact absurd inEmpty (SortedSet.not_mem_empty target)

/-- It makes no difference whether a set is closed before a character is read. -/
theorem read_closure (nfa : Nfa) (states : StateSet) (character : Char) :
    nfa.read (nfa.closure states) character = nfa.read states character := by
  unfold read
  rw [closure_closure]

theorem isAccepting_closure (nfa : Nfa) (states : StateSet) :
    nfa.isAccepting (nfa.closure states) = nfa.isAccepting states := by
  unfold isAccepting
  rw [closure_closure]

/-- A run that is in no state accepts nothing. -/
theorem isAccepting_eq_false {states : StateSet} (dead : nfa.closure states = ∅) :
    nfa.isAccepting states = false := by
  rw [isAccepting, dead]
  rfl

end Nfa
end FiniteAutomata
