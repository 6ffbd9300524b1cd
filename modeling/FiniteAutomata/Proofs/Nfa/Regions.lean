import FiniteAutomata.Proofs.Nfa.Reachability

namespace FiniteAutomata
namespace Nfa

/-!
# Paths through a part of an automaton

A larger automaton contains a smaller one as a region if the moves that leave a
state of the region belong to the smaller automaton or are free moves out of it.
A path that begins in the region is then a path of the smaller automaton until
it takes such an exit.  If the exits lead back into the region, the path falls
into laps.
-/

variable {whole part : Nfa} {inside : StateId -> Prop} {exits : List StateId}
  {entry : StateId}

/-- The moves of `whole` that leave a state of the region belong to `part` and stay
in the region, or they are free moves from an exit to `entry`. -/
def IsRegion (whole part : Nfa) (inside : StateId -> Prop) (exits : List StateId)
    (entry : StateId) : Prop :=
  forall move, move ∈ whole.moves -> inside move.source ->
    (move ∈ part.moves ∧ inside move.target) ∨
      exists exit, exit ∈ exits ∧ move = Transition.free exit entry

/-- A path that begins in a region stays there or takes a first exit. -/
theorem Path.stays_or_exits (region : IsRegion whole part inside exits entry)
    {source target : StateId} {word : Word} (path : whole.Path source word target)
    (begins : inside source) :
    (inside target ∧ part.Path source word target) ∨
      exists exit left right, exit ∈ exits ∧ word = left ++ right ∧
        part.Path source left exit ∧ whole.Path entry right target := by
  induction path with
  | stay state => exact Or.inl ⟨begins, Path.stay state⟩
  | free listed path inductionHypothesis =>
    rcases region _ listed begins with ⟨inPart, stays⟩ | ⟨exit, isExit, same⟩
    · rcases inductionHypothesis stays with ⟨ends, inner⟩ | ⟨exit, left, right, found⟩
      · exact Or.inl ⟨ends, Path.free inPart inner⟩
      · rcases found with ⟨isExit, split, inner, outer⟩
        exact Or.inr ⟨exit, left, right, isExit, split, Path.free inPart inner, outer⟩
    · cases same
      exact Or.inr ⟨_, [], _, isExit, rfl, Path.stay _, path⟩
  | read listed path inductionHypothesis =>
    rcases region _ listed begins with ⟨inPart, stays⟩ | ⟨exit, _, same⟩
    · rcases inductionHypothesis stays with ⟨ends, inner⟩ | ⟨exit, left, right, found⟩
      · exact Or.inl ⟨ends, Path.read inPart inner⟩
      · rcases found with ⟨isExit, split, inner, outer⟩
        exact Or.inr ⟨exit, _ :: left, right, isExit, congrArg (List.cons _) split,
          Path.read inPart inner, outer⟩
    · cases same

/-- Without exits a path never leaves the region in which it begins. -/
theorem Path.stays (closed : forall move, move ∈ whole.moves -> inside move.source ->
      move ∈ part.moves ∧ inside move.target)
    {source target : StateId} {word : Word} (path : whole.Path source word target)
    (begins : inside source) : inside target ∧ part.Path source word target := by
  have region : IsRegion whole part inside [] source :=
    fun move listed leaves => Or.inl (closed move listed leaves)
  rcases path.stays_or_exits region begins with stays | ⟨exit, _, _, isExit, _⟩
  · exact stays
  · exact absurd isExit List.not_mem_nil

/-- Any number of paths through a part from its entry to an exit, before a last
path that may end anywhere.  Only the first path may begin elsewhere. -/
inductive Laps (part : Nfa) (exits : List StateId) (entry : StateId) :
    StateId -> Word -> StateId -> Prop where
  | last {source target : StateId} {word : Word} :
      part.Path source word target -> Laps part exits entry source word target
  | lap {source exit target : StateId} {left right : Word} :
      exit ∈ exits -> part.Path source left exit -> Laps part exits entry entry right target ->
        Laps part exits entry source (left ++ right) target

theorem Laps.free {source middle target : StateId} {word : Word}
    (listed : Transition.free source middle ∈ part.moves)
    (laps : Laps part exits entry middle word target) :
    Laps part exits entry source word target := by
  cases laps with
  | last path => exact Laps.last (Path.free listed path)
  | lap isExit path later => exact Laps.lap isExit (Path.free listed path) later

theorem Laps.read {source middle target : StateId} {character : Char} {word : Word}
    (listed : Transition.reading source character middle ∈ part.moves)
    (laps : Laps part exits entry middle word target) :
    Laps part exits entry source (character :: word) target := by
  cases laps with
  | last path => exact Laps.last (Path.read listed path)
  | lap isExit path later => exact Laps.lap isExit (Path.read listed path) later

/-- If the exits lead back into the region, every path falls into laps. -/
theorem Path.laps (region : IsRegion whole part inside exits entry) (entered : inside entry)
    {source target : StateId} {word : Word} (path : whole.Path source word target)
    (begins : inside source) : Laps part exits entry source word target := by
  induction path with
  | stay state => exact Laps.last (Path.stay state)
  | free listed _ inductionHypothesis =>
    rcases region _ listed begins with ⟨inPart, stays⟩ | ⟨exit, isExit, same⟩
    · exact (inductionHypothesis stays).free inPart
    · cases same
      exact Laps.lap isExit (Path.stay _) (inductionHypothesis entered)
  | read listed _ inductionHypothesis =>
    rcases region _ listed begins with ⟨inPart, stays⟩ | ⟨exit, _, same⟩
    · exact (inductionHypothesis stays).read inPart
    · cases same

/-- A path into a state that no move enters does not move at all. -/
theorem Path.eq_of_not_entered {nfa : Nfa} {state : StateId}
    (notEntered : forall move, move ∈ nfa.moves -> move.target ≠ state)
    {source target : StateId} {word : Word} (path : nfa.Path source word target)
    (arrives : target = state) : source = state ∧ word = [] := by
  induction path with
  | stay source => exact ⟨arrives, rfl⟩
  | free listed _ inductionHypothesis =>
    exact absurd (inductionHypothesis arrives).1 (notEntered _ listed)
  | read listed _ inductionHypothesis =>
    exact absurd (inductionHypothesis arrives).1 (notEntered _ listed)

end Nfa
end FiniteAutomata
