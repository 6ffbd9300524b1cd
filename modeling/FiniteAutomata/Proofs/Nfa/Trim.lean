import FiniteAutomata.Proofs.Nfa.Reachability

namespace FiniteAutomata
namespace Nfa

/-!
# Automata without useless states

A state is useful if some word leads to it from the start and some word leads on from it
to an accepting state.  In an automaton all of whose states are useful, a run has states
left exactly as long as what it has read can be continued to an accepted word.
-/

variable {nfa part whole : Nfa}

/-! ## Useful states -/

/-- Some word leads from the start to the state. -/
def Reaches (nfa : Nfa) (state : StateId) : Prop :=
  exists word, nfa.Path nfa.start word state

/-- Some word leads from the state to an accepting state. -/
def CanAccept (nfa : Nfa) (state : StateId) : Prop :=
  exists word target, target ∈ nfa.accepting ∧ nfa.Path state word target

theorem reaches_start (nfa : Nfa) : nfa.Reaches nfa.start := ⟨[], Path.stay _⟩

theorem Reaches.free {source target : StateId} (reached : nfa.Reaches source)
    (listed : Transition.free source target ∈ nfa.moves) : nfa.Reaches target := by
  rcases reached with ⟨word, path⟩
  exact ⟨word ++ [], path.append (Path.free listed (Path.stay target))⟩

theorem Reaches.mem_states {state : StateId} (reached : nfa.Reaches state) :
    state ∈ nfa.states := by
  rcases reached with ⟨word, path⟩
  exact path.mem_states (start_mem_states nfa)

theorem canAccept_of_mem {state : StateId} (accepts : state ∈ nfa.accepting) :
    nfa.CanAccept state :=
  ⟨[], state, accepts, Path.stay state⟩

theorem CanAccept.free {source target : StateId} (canAccept : nfa.CanAccept target)
    (listed : Transition.free source target ∈ nfa.moves) : nfa.CanAccept source := by
  rcases canAccept with ⟨word, final, accepts, path⟩
  exact ⟨word, final, accepts, Path.free listed path⟩

/-! ### Parts of an automaton -/

/-- What a part reaches is reached by the whole, if the start of the part is. -/
theorem Reaches.of_part {state : StateId} (reached : part.Reaches state)
    (included : forall move, move ∈ part.moves -> move ∈ whole.moves)
    (entered : whole.Reaches part.start) : whole.Reaches state := by
  rcases entered with ⟨before, leading⟩
  rcases reached with ⟨word, path⟩
  exact ⟨before ++ word, leading.append (path.of_moves_subset included)⟩

/-- What can accept in a part can accept in the whole, if the accepting states of the part
can. -/
theorem CanAccept.of_part {state : StateId} (canAccept : part.CanAccept state)
    (included : forall move, move ∈ part.moves -> move ∈ whole.moves)
    (continued : forall state, state ∈ part.accepting -> whole.CanAccept state) :
    whole.CanAccept state := by
  rcases canAccept with ⟨word, exit, accepts, path⟩
  rcases continued exit accepts with ⟨rest, target, acceptsToo, remaining⟩
  exact ⟨word ++ rest, target, acceptsToo, (path.of_moves_subset included).append remaining⟩

/-! ## When a run is dead -/

/-- A path that reads two words one after the other passes a state between them. -/
theorem Path.exists_between {source target : StateId} {left right : Word}
    (path : nfa.Path source (left ++ right) target) :
    exists middle, nfa.Path source left middle ∧ nfa.Path middle right target := by
  induction left generalizing source with
  | nil => exact ⟨source, Path.stay source, path⟩
  | cons character rest inductionHypothesis =>
    rcases path.first_read rfl with ⟨before, after, leading, listed, remaining⟩
    rcases inductionHypothesis remaining with ⟨middle, first, second⟩
    exact ⟨middle, leading.append (Path.read listed first), second⟩

theorem mem_statesAfter_iff {word : Word} {state : StateId} :
    state ∈ nfa.statesAfter word ↔ nfa.Path nfa.start word state := by
  unfold statesAfter
  rw [mem_closure_readWord_iff_path]
  constructor
  · rintro ⟨source, isStart, path⟩
    rwa [SortedSet.mem_singleton.mp isStart] at path
  · intro path
    exact ⟨nfa.start, SortedSet.mem_singleton.mpr rfl, path⟩

/-- An accepted word can be cut in two anywhere, and the run is then in a state from which the
second part leads to an accepting state. -/
theorem accepts_append_iff {left right : Word} : nfa.accepts (left ++ right) = true ↔
    exists middle target, middle ∈ nfa.statesAfter left ∧ target ∈ nfa.accepting ∧
      nfa.Path middle right target := by
  rw [accepts_iff_exists_path]
  constructor
  · rintro ⟨target, accepts, path⟩
    rcases path.exists_between with ⟨middle, first, second⟩
    exact ⟨middle, target, mem_statesAfter_iff.mpr first, accepts, second⟩
  · rintro ⟨middle, target, reached, accepts, second⟩
    exact ⟨target, accepts, (mem_statesAfter_iff.mp reached).append second⟩

/-- What a run can still accept depends on nothing but the states in which it is. -/
theorem accepts_append_of_statesAfter_eq {left other : Word}
    (same : nfa.statesAfter left = nfa.statesAfter other) (rest : Word) :
    nfa.accepts (left ++ rest) = true ↔ nfa.accepts (other ++ rest) = true := by
  rw [accepts_append_iff, accepts_append_iff, same]

/-- Where every state can accept, a run is without states exactly if no word that begins
with what was read is accepted. -/
theorem statesAfter_eq_empty_iff (useful : forall state, state ∈ nfa.states -> nfa.CanAccept state)
    (word : Word) : nfa.statesAfter word = ∅ ↔
      forall whole, word <+: whole -> ¬ nfa.accepts whole = true := by
  constructor
  · rintro dead _ ⟨rest, rfl⟩ accepted
    rcases accepts_append_iff.mp accepted with ⟨middle, _, alive, _⟩
    rw [dead] at alive
    exact SortedSet.not_mem_empty middle alive
  · intro hopeless
    ext state
    refine iff_of_false (fun alive => ?_) (SortedSet.not_mem_empty state)
    have path := mem_statesAfter_iff.mp alive
    rcases useful state (path.mem_states (start_mem_states nfa)) with
      ⟨rest, target, accepts, remaining⟩
    exact hopeless (word ++ rest) (List.prefix_append word rest)
      (accepts_iff_exists_path.mpr ⟨target, accepts, path.append remaining⟩)

end Nfa
end FiniteAutomata
