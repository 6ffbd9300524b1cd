import FiniteAutomata.Proofs.Nfa.Movebook
import FiniteAutomata.Proofs.Nfa.Reachability

namespace FiniteAutomata
namespace Nfa

/-!
# What a run computes, move by move

A path says that a word leads from one state to another.  A route lists the very
moves that are made on the way, repetitions and free moves included, and leaves
the word to be read off them.  Both say the same, so a run is in exactly the
states at which the routes for its word arrive: it does not matter that a run
closes its states late, that free moves may form cycles, or that moves are listed
more than once.
-/

variable {nfa : Nfa}

/-! ## Paths and routes -/

theorem spelled_cons (move : Move) (later : List Move) :
    spelled (move :: later) = move.symbol.char?.toList ++ spelled later := by
  unfold spelled
  cases read : move.symbol.char? <;> simp [read]

theorem Path.exists_route {source target : StateId} {word : Word}
    (path : nfa.Path source word target) :
    exists moves, nfa.IsRoute source moves target ∧ spelled moves = word := by
  induction path with
  | stay state => exact ⟨[], rfl, rfl⟩
  | free listed _ inductionHypothesis =>
    rcases inductionHypothesis with ⟨moves, route, spells⟩
    refine ⟨_ :: moves, ⟨listed, rfl, route⟩, ?_⟩
    rw [spelled_cons, spells]
    rfl
  | read listed _ inductionHypothesis =>
    rcases inductionHypothesis with ⟨moves, route, spells⟩
    refine ⟨_ :: moves, ⟨listed, rfl, route⟩, ?_⟩
    rw [spelled_cons, spells]
    rfl

theorem IsRoute.path {source target : StateId} {moves : List Move}
    (route : nfa.IsRoute source moves target) : nfa.Path source (spelled moves) target := by
  induction moves generalizing source with
  | nil =>
    cases route
    exact Path.stay target
  | cons move later inductionHypothesis =>
    rcases route with ⟨listed, rfl, remaining⟩
    have path := inductionHypothesis remaining
    rcases move with ⟨source, symbol, middle⟩
    rw [spelled_cons]
    cases symbol with
    | free => exact Path.free listed path
    | char character => exact Path.read listed path

/-- A word leads from one state to another exactly if a route between them spells
it. -/
theorem path_iff_exists_route {source target : StateId} {word : Word} :
    nfa.Path source word target ↔
      exists moves, nfa.IsRoute source moves target ∧ spelled moves = word := by
  constructor
  · exact Path.exists_route
  · rintro ⟨moves, route, rfl⟩
    exact route.path

/-! ## Runs and routes -/

/-- A run that begins in the states of `seeds` is, after a word, in the states to
which routes for the word lead from them, and it accepts if one of these is an
accepting state.  The automaton accepts a word if such a route leaves its start.  The
moves that can be made in a state are those to which an index of the moves leads. -/
theorem run_follows_routes (nfa : Nfa) (seeds : StateSet) (word : Word) :
    (forall state, state ∈ nfa.closure (nfa.readWord seeds word) ↔
      exists source, source ∈ seeds ∧
        exists moves, nfa.IsRoute source moves state ∧ spelled moves = word) ∧
    (nfa.isAccepting (nfa.readWord seeds word) = true ↔
      exists source state, source ∈ seeds ∧ state ∈ nfa.accepting ∧
        exists moves, nfa.IsRoute source moves state ∧ spelled moves = word) ∧
    (nfa.accepts word = true ↔
      exists state, state ∈ nfa.accepting ∧
        exists moves, nfa.IsRoute nfa.start moves state ∧ spelled moves = word) ∧
    forall state symbol,
      (Movebook.ofMoves nfa.moves).movesFrom state symbol = nfa.movesFrom state symbol := by
  simp only [← path_iff_exists_route]
  exact ⟨fun _ => mem_closure_readWord_iff_path, isAccepting_readWord_iff_path,
    accepts_iff_exists_path, Movebook.movesFrom_ofMoves nfa⟩

end Nfa
end FiniteAutomata
