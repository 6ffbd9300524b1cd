import FiniteAutomata.Proofs.Thompson.Construction

namespace FiniteAutomata
namespace Thompson

/-!
# The fragments of different parts do not touch

Everything that belongs to a part of a pattern lies in the block of numbers that
the part takes up, and no move of the part enters its start.  The second fact is
what makes it harmless that a repetition accepts in the start of its body: a path
that has left this start comes back to it only through the moves that the
repetition adds.
-/

/-- The state is numbered from `low` up to, but not including, `high`. -/
def Between (low high : Nat) (state : StateId) : Prop :=
  low ≤ state.toNat ∧ state.toNat < high

theorem Between.mono {low high lower higher : Nat} {state : StateId}
    (between : Between low high state) (below : lower ≤ low) (above : high ≤ higher) :
    Between lower higher state :=
  ⟨Nat.le_trans below between.1, Nat.lt_of_lt_of_le between.2 above⟩

theorem Between.ne {low middle high : Nat} {first second : StateId}
    (firstBetween : Between low middle first) (secondBetween : Between middle high second) :
    first ≠ second := by
  intro same
  have firstBelow := firstBetween.2
  rw [same] at firstBelow
  exact Nat.lt_irrefl _ (Nat.lt_of_lt_of_le firstBelow secondBetween.1)

/-- A new state is outside every block that ends with it. -/
theorem Between.ne_end {low : Nat} {state fresh : StateId}
    (between : Between low fresh.toNat state) : state ≠ fresh := by
  intro same
  rw [same] at between
  exact Nat.lt_irrefl _ between.2

theorem between_end {low : Nat} {state fresh : StateId}
    (between : Between low fresh.toNat state) : Between low (fresh.toNat + 1) fresh :=
  ⟨Nat.le_trans between.1 (Nat.le_of_lt between.2), Nat.lt_succ_self _⟩

/-- A fragment keeps to a block of numbers, and nothing enters its start. -/
structure Isolated (fragment : Fragment) (moves : List Move) (low high : Nat) : Prop where
  start_between : Between low high fragment.start
  accepting_between : forall state, state ∈ fragment.accepting -> Between low high state
  accepting_ne_nil : fragment.accepting ≠ []
  moves_between : forall move, move ∈ moves ->
    Between low high move.source ∧ Between low high move.target
  start_not_entered : forall move, move ∈ moves -> move.target ≠ fragment.start

theorem Isolated.low_le_high {fragment : Fragment} {moves : List Move} {low high : Nat}
    (isolated : Isolated fragment moves low high) : low ≤ high :=
  Nat.le_trans isolated.start_between.1 (Nat.le_of_lt isolated.start_between.2)

/-- The state behind two adjacent blocks is not in the first of them. -/
theorem Isolated.ne_end {fragment : Fragment} {moves : List Move} {low middle : Nat}
    {state fresh : StateId} (isolated : Isolated fragment moves middle fresh.toNat)
    (between : Between low middle state) : state ≠ fresh :=
  (between.mono (Nat.le_refl _) isolated.low_le_high).ne_end

/-! ## Which moves there are -/

theorem mem_bridges {exits : List StateId} {entry : StateId} {move : Move} :
    move ∈ exits.map (fun state => Transition.free state entry) ↔
      exists exit, exit ∈ exits ∧ move = Transition.free exit entry := by
  rw [List.mem_map]
  constructor
  · intro listed
    rcases listed with ⟨exit, isExit, same⟩
    exact ⟨exit, isExit, same.symm⟩
  · intro bridge
    rcases bridge with ⟨exit, isExit, same⟩
    exact ⟨exit, isExit, same.symm⟩

theorem mem_concat_moves {firstMoves secondMoves : List Move} {exits : List StateId}
    {entry : StateId} {move : Move} :
    move ∈ firstMoves ++ secondMoves ++ exits.map (fun state => Transition.free state entry) ↔
      move ∈ firstMoves ∨ move ∈ secondMoves ∨
        exists exit, exit ∈ exits ∧ move = Transition.free exit entry := by
  rw [List.mem_append, List.mem_append, mem_bridges, or_assoc]

theorem mem_choice_moves {firstMoves secondMoves : List Move}
    {start firstStart secondStart : StateId} {move : Move} :
    move ∈ firstMoves ++ secondMoves ++
        [Transition.free start firstStart, Transition.free start secondStart] ↔
      move ∈ firstMoves ∨ move ∈ secondMoves ∨ move = Transition.free start firstStart ∨
        move = Transition.free start secondStart := by
  rw [List.mem_append, List.mem_append, or_assoc, List.mem_cons, List.mem_singleton]

theorem mem_star_moves {moves : List Move} {exits : List StateId} {start entry : StateId}
    {move : Move} :
    move ∈ moves ++ Transition.free start entry ::
        exits.map (fun state => Transition.free state entry) ↔
      move ∈ moves ∨ move = Transition.free start entry ∨
        exists exit, exit ∈ exits ∧ move = Transition.free exit entry := by
  rw [List.mem_append, List.mem_cons, mem_bridges]

/-! ## Isolation -/

theorem isolated_literal {character : Char} {start accept : StateId}
    (next : accept.toNat = start.toNat + 1) :
    Isolated ⟨start, [accept]⟩ [.reading start character accept] start.toNat
      (start.toNat + 2) := by
  have startBetween : Between start.toNat (start.toNat + 2) start :=
    ⟨Nat.le_refl _, by omega⟩
  have acceptBetween : Between start.toNat (start.toNat + 2) accept :=
    ⟨by omega, by omega⟩
  have different : accept ≠ start := by
    intro same
    rw [same] at next
    omega
  refine ⟨startBetween, ?_, List.cons_ne_nil _ _, ?_, ?_⟩
  · intro state member
    exact List.mem_singleton.mp member ▸ acceptBetween
  · intro move listed
    rw [List.mem_singleton.mp listed]
    exact ⟨startBetween, acceptBetween⟩
  · intro move listed
    rw [List.mem_singleton.mp listed]
    exact different

theorem Isolated.concat {first second : Fragment} {firstMoves secondMoves : List Move}
    {low middle high : Nat} (firstIsolated : Isolated first firstMoves low middle)
    (secondIsolated : Isolated second secondMoves middle high) :
    Isolated ⟨first.start, second.accepting⟩
      (firstMoves ++ secondMoves ++
        first.accepting.map fun state => .free state second.start) low high := by
  have inFirst : forall state, Between low middle state -> Between low high state :=
    fun state between => between.mono (Nat.le_refl _) secondIsolated.low_le_high
  have inSecond : forall state, Between middle high state -> Between low high state :=
    fun state between => between.mono firstIsolated.low_le_high (Nat.le_refl _)
  refine ⟨inFirst _ firstIsolated.start_between, ?_, secondIsolated.accepting_ne_nil, ?_, ?_⟩
  · intro state member
    exact inSecond state (secondIsolated.accepting_between state member)
  · intro move listed
    rcases mem_concat_moves.mp listed with isFirst | isSecond | ⟨exit, isExit, same⟩
    · rcases firstIsolated.moves_between move isFirst with ⟨source, target⟩
      exact ⟨inFirst _ source, inFirst _ target⟩
    · rcases secondIsolated.moves_between move isSecond with ⟨source, target⟩
      exact ⟨inSecond _ source, inSecond _ target⟩
    · rw [same]
      exact ⟨inFirst _ (firstIsolated.accepting_between exit isExit),
        inSecond _ secondIsolated.start_between⟩
  · intro move listed
    rcases mem_concat_moves.mp listed with isFirst | isSecond | ⟨exit, isExit, same⟩
    · exact firstIsolated.start_not_entered move isFirst
    · have target := (secondIsolated.moves_between move isSecond).2
      exact (firstIsolated.start_between.ne target).symm
    · rw [same]
      exact (firstIsolated.start_between.ne secondIsolated.start_between).symm

/-- A new start that is numbered after everything else is not entered, because all moves
lead to states that were there before. -/
theorem isolated_of_new_start {start : StateId} {accepting : List StateId}
    {moves : List Move} {low : Nat} (startBetween : Between low (start.toNat + 1) start)
    (acceptingBetween : forall state, state ∈ accepting -> Between low (start.toNat + 1) state)
    (nonempty : accepting ≠ [])
    (leadBack : forall move, move ∈ moves ->
      Between low (start.toNat + 1) move.source ∧ Between low start.toNat move.target) :
    Isolated ⟨start, accepting⟩ moves low (start.toNat + 1) := by
  refine ⟨startBetween, acceptingBetween, nonempty, ?_, ?_⟩
  · intro move listed
    rcases leadBack move listed with ⟨source, target⟩
    exact ⟨source, target.mono (Nat.le_refl _) (Nat.le_succ _)⟩
  · intro move listed
    exact (leadBack move listed).2.ne_end

theorem Isolated.choice {first second : Fragment} {firstMoves secondMoves : List Move}
    {low middle : Nat} {start : StateId}
    (firstIsolated : Isolated first firstMoves low middle)
    (secondIsolated : Isolated second secondMoves middle start.toNat) :
    Isolated ⟨start, first.accepting ++ second.accepting⟩
      (firstMoves ++ secondMoves ++ [.free start first.start, .free start second.start])
      low (start.toNat + 1) := by
  have inFirst : forall state, Between low middle state -> Between low start.toNat state :=
    fun state between => between.mono (Nat.le_refl _) secondIsolated.low_le_high
  have inSecond : forall state, Between middle start.toNat state ->
      Between low start.toNat state :=
    fun state between => between.mono firstIsolated.low_le_high (Nat.le_refl _)
  have inWhole : forall state, Between low start.toNat state ->
      Between low (start.toNat + 1) state :=
    fun state between => between.mono (Nat.le_refl _) (Nat.le_succ _)
  have firstStart := inFirst _ firstIsolated.start_between
  have secondStart := inSecond _ secondIsolated.start_between
  apply isolated_of_new_start (between_end firstStart)
  · intro state member
    rcases List.mem_append.mp member with isFirst | isSecond
    · exact inWhole _ (inFirst _ (firstIsolated.accepting_between state isFirst))
    · exact inWhole _ (inSecond _ (secondIsolated.accepting_between state isSecond))
  · intro empty
    exact firstIsolated.accepting_ne_nil (List.append_eq_nil_iff.mp empty).1
  · intro move listed
    rcases mem_choice_moves.mp listed with isFirst | isSecond | same | same
    · rcases firstIsolated.moves_between move isFirst with ⟨source, target⟩
      exact ⟨inWhole _ (inFirst _ source), inFirst _ target⟩
    · rcases secondIsolated.moves_between move isSecond with ⟨source, target⟩
      exact ⟨inWhole _ (inSecond _ source), inSecond _ target⟩
    · rw [same]
      exact ⟨between_end firstStart, firstStart⟩
    · rw [same]
      exact ⟨between_end firstStart, secondStart⟩

theorem Isolated.star {part : Fragment} {moves : List Move} {low : Nat} {start : StateId}
    (isolated : Isolated part moves low start.toNat) :
    Isolated ⟨start, start :: part.start :: part.accepting⟩
      (moves ++ .free start part.start ::
        part.accepting.map fun state => .free state part.start)
      low (start.toNat + 1) := by
  have inWhole : forall state, Between low start.toNat state ->
      Between low (start.toNat + 1) state :=
    fun state between => between.mono (Nat.le_refl _) (Nat.le_succ _)
  have startBetween := between_end isolated.start_between
  apply isolated_of_new_start startBetween
  · intro state member
    rcases List.mem_cons.mp member with isStart | inner
    · exact isStart ▸ startBetween
    · rcases List.mem_cons.mp inner with isPartStart | accepts
      · exact isPartStart ▸ inWhole _ isolated.start_between
      · exact inWhole _ (isolated.accepting_between state accepts)
  · exact List.cons_ne_nil _ _
  · intro move listed
    rcases mem_star_moves.mp listed with inPart | same | ⟨exit, isExit, same⟩
    · rcases isolated.moves_between move inPart with ⟨source, target⟩
      exact ⟨inWhole _ source, target⟩
    · rw [same]
      exact ⟨startBetween, isolated.start_between⟩
    · rw [same]
      exact ⟨inWhole _ (isolated.accepting_between exit isExit), isolated.start_between⟩

theorem Built.isolated {pattern : Pattern} {low high : Nat} {fragment : Fragment}
    {moves : List Move} (built : Built pattern low high fragment moves) :
    Isolated fragment moves low high := by
  induction built with
  | @empty start =>
    have startBetween : Between start.toNat (start.toNat + 1) start :=
      ⟨Nat.le_refl _, Nat.lt_succ_self _⟩
    refine ⟨startBetween, ?_, List.cons_ne_nil _ _, ?_, ?_⟩
    · intro state member
      exact List.mem_singleton.mp member ▸ startBetween
    · intro move listed
      exact absurd listed List.not_mem_nil
    · intro move listed
      exact absurd listed List.not_mem_nil
  | literal next => exact isolated_literal next
  | concat _ _ firstIsolated secondIsolated => exact firstIsolated.concat secondIsolated
  | choice _ _ firstIsolated secondIsolated => exact firstIsolated.choice secondIsolated
  | star _ isolated => exact isolated.star

end Thompson
end FiniteAutomata
