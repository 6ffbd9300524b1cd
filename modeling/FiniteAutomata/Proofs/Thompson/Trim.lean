import FiniteAutomata.Proofs.Nfa.Trim
import FiniteAutomata.Proofs.Thompson.Recognition

namespace FiniteAutomata
namespace Thompson

/-!
# No state of a fragment is useless

Every state in the block of a fragment lies on the way from its start to an accepting
state.  The parts of a larger fragment keep their states useful because the moves between
them enter a part at its start and leave it from its accepting states, and because a part
always has accepting states to be left from.
-/

/-- Every state in the block is reached from the start and can accept. -/
structure IsTrim (fragment : Fragment) (moves : List Move) (low high : Nat) : Prop where
  reaches : forall state, Between low high state -> (fragment.toNfa moves).Reaches state
  canAccept : forall state, Between low high state -> (fragment.toNfa moves).CanAccept state

theorem between_cases {low high : Nat} (middle : Nat) {state : StateId}
    (between : Between low high state) : Between low middle state ∨ Between middle high state := by
  by_cases below : state.toNat < middle
  · exact Or.inl ⟨between.1, below⟩
  · exact Or.inr ⟨Nat.le_of_not_lt below, between.2⟩

/-- Behind a block there is room for one more state only. -/
theorem between_succ_cases {low : Nat} {state fresh : StateId}
    (between : Between low (fresh.toNat + 1) state) :
    Between low fresh.toNat state ∨ state = fresh := by
  rcases between_cases fresh.toNat between with inBlock | ⟨above, below⟩
  · exact Or.inl inBlock
  · exact Or.inr (UInt32.toNat_inj.mp (Nat.le_antisymm (Nat.le_of_lt_succ below) above))

theorem canAccept_of_mem_accepting {fragment : Fragment} {moves : List Move} {state : StateId}
    (accepts : state ∈ fragment.accepting) : (fragment.toNfa moves).CanAccept state :=
  Nfa.canAccept_of_mem (SortedSet.mem_ofList.mpr accepts)

theorem isTrim_empty (start : StateId) :
    IsTrim ⟨start, [start]⟩ [] start.toNat (start.toNat + 1) := by
  have isStart : forall state, Between start.toNat (start.toNat + 1) state -> state = start := by
    intro state between
    rcases between_succ_cases between with ⟨above, below⟩ | same
    · exact absurd below (Nat.not_lt_of_le above)
    · exact same
  constructor
  · intro state between
    rw [isStart state between]
    exact Nfa.reaches_start _
  · intro state between
    rw [isStart state between]
    exact canAccept_of_mem_accepting List.mem_cons_self

theorem isTrim_literal {character : Char} {start accept : StateId}
    (next : accept.toNat = start.toNat + 1) :
    IsTrim ⟨start, [accept]⟩ [.reading start character accept] start.toNat
      (start.toNat + 2) := by
  have either : forall state, Between start.toNat (start.toNat + 2) state ->
      state = start ∨ state = accept := by
    rintro state ⟨above, below⟩
    rw [← UInt32.toNat_inj, ← UInt32.toNat_inj]
    omega
  have reads : Nfa.Path (Fragment.toNfa ⟨start, [accept]⟩ [.reading start character accept])
      start [character] accept :=
    Nfa.Path.read List.mem_cons_self (Nfa.Path.stay accept)
  constructor
  · intro state between
    rcases either state between with same | same
    · rw [same]
      exact Nfa.reaches_start _
    · rw [same]
      exact ⟨[character], reads⟩
  · intro state between
    rcases either state between with same | same
    · rw [same]
      exact ⟨[character], accept, SortedSet.mem_ofList.mpr List.mem_cons_self, reads⟩
    · rw [same]
      exact canAccept_of_mem_accepting List.mem_cons_self

/-- A part that the whole enters at its start and can leave from all its accepting states
keeps its states useful. -/
theorem IsTrim.of_part {part whole : Fragment} {moves wholeMoves : List Move} {low high : Nat}
    (trim : IsTrim part moves low high)
    (included : forall move, move ∈ moves -> move ∈ wholeMoves)
    (entered : (whole.toNfa wholeMoves).Reaches part.start)
    (continued : forall state, state ∈ part.accepting ->
      (whole.toNfa wholeMoves).CanAccept state) : IsTrim whole wholeMoves low high := by
  constructor
  · intro state between
    exact (trim.reaches state between).of_part included entered
  · intro state between
    refine (trim.canAccept state between).of_part included fun exit isExit => ?_
    exact continued exit (SortedSet.mem_ofList.mp isExit)

theorem IsTrim.append {fragment : Fragment} {moves : List Move} {low middle high : Nat}
    (first : IsTrim fragment moves low middle) (second : IsTrim fragment moves middle high) :
    IsTrim fragment moves low high := by
  constructor
  · intro state between
    rcases between_cases middle between with below | above
    · exact first.reaches state below
    · exact second.reaches state above
  · intro state between
    rcases between_cases middle between with below | above
    · exact first.canAccept state below
    · exact second.canAccept state above

/-- A start of its own, numbered after everything else, is useful as soon as a free move
leads from it to a state that is. -/
theorem IsTrim.with_start {start entry : StateId} {accepting : List StateId} {moves : List Move}
    {low : Nat} (trim : IsTrim ⟨start, accepting⟩ moves low start.toNat)
    (between : Between low start.toNat entry) (listed : .free start entry ∈ moves) :
    IsTrim ⟨start, accepting⟩ moves low (start.toNat + 1) := by
  constructor
  · intro state inBlock
    rcases between_succ_cases inBlock with inside | isStart
    · exact trim.reaches state inside
    · rw [isStart]
      exact Nfa.reaches_start _
  · intro state inBlock
    rcases between_succ_cases inBlock with inside | isStart
    · exact trim.canAccept state inside
    · rw [isStart]
      exact (trim.canAccept entry between).free listed

theorem IsTrim.concat {first second : Fragment} {firstMoves secondMoves : List Move}
    {low middle high : Nat} (firstIsolated : Isolated first firstMoves low middle)
    (secondIsolated : Isolated second secondMoves middle high)
    (firstTrim : IsTrim first firstMoves low middle)
    (secondTrim : IsTrim second secondMoves middle high) :
    IsTrim ⟨first.start, second.accepting⟩
      (firstMoves ++ secondMoves ++
        first.accepting.map fun state => .free state second.start) low high := by
  have firstIncluded : forall move, move ∈ firstMoves -> move ∈ firstMoves ++ secondMoves ++
      first.accepting.map fun state => .free state second.start :=
    fun move listed => mem_concat_moves.mpr (Or.inl listed)
  have bridge : forall exit, exit ∈ first.accepting ->
      Transition.free exit second.start ∈ firstMoves ++ secondMoves ++
        first.accepting.map fun state => .free state second.start :=
    fun exit isExit => mem_concat_moves.mpr (Or.inr (Or.inr ⟨exit, isExit, rfl⟩))
  -- The second part is entered from any exit of the first, and there is one.
  rcases List.exists_mem_of_ne_nil _ firstIsolated.accepting_ne_nil with ⟨exit, isExit⟩
  have exitReached := firstTrim.reaches exit (firstIsolated.accepting_between exit isExit)
  have entered : (Fragment.toNfa ⟨first.start, second.accepting⟩ (firstMoves ++ secondMoves ++
      first.accepting.map fun state => .free state second.start)).Reaches second.start := by
    refine Nfa.Reaches.free ?_ (bridge exit isExit)
    exact exitReached.of_part firstIncluded (Nfa.reaches_start _)
  have inSecond : IsTrim ⟨first.start, second.accepting⟩ _ middle high :=
    secondTrim.of_part (fun move listed => mem_concat_moves.mpr (Or.inr (Or.inl listed))) entered
      (fun _ accepts => canAccept_of_mem_accepting accepts)
  have inFirst : IsTrim ⟨first.start, second.accepting⟩ _ low middle :=
    firstTrim.of_part firstIncluded (Nfa.reaches_start _) fun exit isExit =>
      (inSecond.canAccept _ secondIsolated.start_between).free (bridge exit isExit)
  exact inFirst.append inSecond

theorem IsTrim.choice {first second : Fragment} {firstMoves secondMoves : List Move}
    {low middle : Nat} {start : StateId} (firstIsolated : Isolated first firstMoves low middle)
    (secondIsolated : Isolated second secondMoves middle start.toNat)
    (firstTrim : IsTrim first firstMoves low middle)
    (secondTrim : IsTrim second secondMoves middle start.toNat) :
    IsTrim ⟨start, first.accepting ++ second.accepting⟩
      (firstMoves ++ secondMoves ++ [.free start first.start, .free start second.start])
      low (start.toNat + 1) := by
  have toFirst : Transition.free start first.start ∈ firstMoves ++ secondMoves ++
      [.free start first.start, .free start second.start] :=
    mem_choice_moves.mpr (Or.inr (Or.inr (Or.inl rfl)))
  have toSecond : Transition.free start second.start ∈ firstMoves ++ secondMoves ++
      [.free start first.start, .free start second.start] :=
    mem_choice_moves.mpr (Or.inr (Or.inr (Or.inr rfl)))
  have inFirst : IsTrim ⟨start, first.accepting ++ second.accepting⟩ _ low middle :=
    firstTrim.of_part (fun move listed => mem_choice_moves.mpr (Or.inl listed))
      ((Nfa.reaches_start _).free toFirst)
      (fun _ accepts => canAccept_of_mem_accepting (List.mem_append_left _ accepts))
  have inSecond : IsTrim ⟨start, first.accepting ++ second.accepting⟩ _ middle start.toNat :=
    secondTrim.of_part (fun move listed => mem_choice_moves.mpr (Or.inr (Or.inl listed)))
      ((Nfa.reaches_start _).free toSecond)
      (fun _ accepts => canAccept_of_mem_accepting (List.mem_append_right _ accepts))
  have firstStart := firstIsolated.start_between.mono (Nat.le_refl _) secondIsolated.low_le_high
  exact (inFirst.append inSecond).with_start firstStart toFirst

theorem IsTrim.star {part : Fragment} {moves : List Move} {low : Nat} {start : StateId}
    (isolated : Isolated part moves low start.toNat) (trim : IsTrim part moves low start.toNat) :
    IsTrim ⟨start, start :: part.start :: part.accepting⟩
      (moves ++ .free start part.start ::
        part.accepting.map fun state => .free state part.start)
      low (start.toNat + 1) := by
  have toPart : Transition.free start part.start ∈ moves ++ .free start part.start ::
      part.accepting.map fun state => .free state part.start :=
    mem_star_moves.mpr (Or.inr (Or.inl rfl))
  have inPart : IsTrim ⟨start, start :: part.start :: part.accepting⟩ _ low start.toNat :=
    trim.of_part (fun move listed => mem_star_moves.mpr (Or.inl listed))
      ((Nfa.reaches_start _).free toPart)
      (fun _ accepts => canAccept_of_mem_accepting
        (List.mem_cons_of_mem _ (List.mem_cons_of_mem _ accepts)))
  exact inPart.with_start isolated.start_between toPart

theorem Built.isTrim {pattern : Pattern} {low high : Nat} {fragment : Fragment}
    {moves : List Move} (built : Built pattern low high fragment moves) :
    IsTrim fragment moves low high := by
  induction built with
  | empty => exact isTrim_empty _
  | literal next => exact isTrim_literal next
  | concat first second firstTrim secondTrim =>
    exact firstTrim.concat first.isolated second.isolated secondTrim
  | choice first second firstTrim secondTrim =>
    exact firstTrim.choice first.isolated second.isolated secondTrim
  | star inner trim => exact trim.star inner.isolated

/-- The states of a fragment are exactly those of its block. -/
theorem Built.mem_states_iff {pattern : Pattern} {low high : Nat} {fragment : Fragment}
    {moves : List Move} (built : Built pattern low high fragment moves) {state : StateId} :
    state ∈ (fragment.toNfa moves).states ↔ Between low high state := by
  have isolated := built.isolated
  constructor
  · intro isState
    rcases Nfa.mem_states.mp isState with isStart | accepts | ⟨move, listed, isSource | isTarget⟩
    · exact isStart ▸ isolated.start_between
    · exact isolated.accepting_between state (SortedSet.mem_ofList.mp accepts)
    · exact isSource ▸ (isolated.moves_between move listed).1
    · exact isTarget ▸ (isolated.moves_between move listed).2
  · intro between
    exact (built.isTrim.reaches state between).mem_states

end Thompson
end FiniteAutomata
