import FiniteAutomata.Proofs.Nfa.Closure

namespace FiniteAutomata
namespace Nfa

/-!
# The closure is the least closed set, and how soon it is found

A state can be pending many times over, and the worklist can grow while it is worked off.
But every turn either drops a pending state or uses up the free moves of a state for good,
and a free move makes at most one state pending.  So there are no more turns than there were
states in the beginning and free moves in the automaton.

What is found is the least set that holds the given states and that free moves do not leave.
How the closure behaves towards larger sets, closed sets and unions follows from this alone.
-/

variable {nfa : Nfa}

/-- The number of free moves; one that is listed twice counts twice. -/
def freeMoveCount (nfa : Nfa) : Nat := nfa.moves.countP fun move => move.symbol.isFree

/-! ## Turns -/

namespace Worklist

/-- The worklist after so many turns, if there is a state to look at in each of them. -/
def after? (nfa : Nfa) : Nat -> Worklist -> Option Worklist
  | 0, worklist => some worklist
  | turns + 1, worklist => (worklist.step? nfa).bind (after? nfa turns)

/-- At the beginning all states are pending and no free move has been used. -/
theorem remaining_begin (nfa : Nfa) (states : StateSet) :
    (begin states).remaining nfa = states.size + nfa.freeMoveCount := by
  have unused : forall move : Move, (begin states).isUnused move = move.symbol.isFree := by
    intro move
    simp [isUnused, begin, SortedSet.contains]
  rw [remaining, freeMoveCount, funext unused, begin, List.length_reverse, SortedSet.size]

/-- Each turn leaves less to do, so the turns do not outnumber what there is to do. -/
theorem exists_after?_eq_run (nfa : Nfa) (worklist : Worklist) :
    exists turns last, turns ≤ worklist.remaining nfa ∧
      after? nfa turns worklist = some last ∧ last.pending = [] ∧
        last.closed = worklist.run nfa := by
  fun_induction run nfa worklist with
  | case1 worklist stopped =>
    exact ⟨0, worklist, Nat.zero_le _, rfl, step?_eq_none stopped, rfl⟩
  | case2 worklist next stepped inductionHypothesis =>
    rcases inductionHypothesis with ⟨turns, last, bounded, reached, finished⟩
    refine ⟨turns + 1, last, ?_, ?_, finished⟩
    · exact Nat.le_trans (Nat.succ_le_succ bounded) (remaining_step stepped)
    · rw [after?, stepped, Option.bind_some, reached]

end Worklist

/-! ## The least closed set -/

/-- The set holds the given states, and free moves do not lead out of it. -/
structure ClosedOver (nfa : Nfa) (states set : StateSet) : Prop where
  subset : states ⊆ set
  free_mem : forall source target, source ∈ set ->
    Transition.free source target ∈ nfa.moves -> target ∈ set

theorem closedOver_closure (nfa : Nfa) (states : StateSet) :
    nfa.ClosedOver states (nfa.closure states) :=
  ⟨subset_closure nfa states, fun _ _ member listed => free_mem_closure member listed⟩

theorem ClosedOver.closure_subset {states set : StateSet} (closed : nfa.ClosedOver states set) :
    nfa.closure states ⊆ set :=
  holds_of_mem_closure closed.free_mem closed.subset

theorem closure_mono {smaller larger : StateSet} (within : smaller ⊆ larger) :
    nfa.closure smaller ⊆ nfa.closure larger := by
  apply ClosedOver.closure_subset
  refine ⟨fun state member => ?_, (closedOver_closure nfa larger).free_mem⟩
  exact subset_closure nfa larger state (within state member)

/-- The closures of two sets together are closed already, because a free move leaves from
one of them. -/
theorem closedOver_union (nfa : Nfa) (first second : StateSet) :
    nfa.ClosedOver (first ∪ second) (nfa.closure first ∪ nfa.closure second) := by
  constructor
  · intro state member
    rcases SortedSet.mem_union.mp member with inFirst | inSecond
    · exact SortedSet.mem_union.mpr (Or.inl (subset_closure nfa first state inFirst))
    · exact SortedSet.mem_union.mpr (Or.inr (subset_closure nfa second state inSecond))
  · intro source target member listed
    rcases SortedSet.mem_union.mp member with inFirst | inSecond
    · exact SortedSet.mem_union.mpr (Or.inl (free_mem_closure inFirst listed))
    · exact SortedSet.mem_union.mpr (Or.inr (free_mem_closure inSecond listed))

theorem closure_union (nfa : Nfa) (first second : StateSet) :
    nfa.closure (first ∪ second) = nfa.closure first ∪ nfa.closure second := by
  ext state
  constructor
  · exact (closedOver_union nfa first second).closure_subset state
  · intro member
    rcases SortedSet.mem_union.mp member with inFirst | inSecond
    · exact closure_mono (fun _ inPart => SortedSet.mem_union.mpr (Or.inl inPart)) state inFirst
    · exact closure_mono (fun _ inPart => SortedSet.mem_union.mpr (Or.inr inPart)) state inSecond

/-- The worklist is done after no more turns than there are states to begin with and free
moves in the automaton, and what it has found is the least set that holds these states and
is closed under free moves.  The closure therefore grows with the set, a second closure adds
nothing, and the closure of a union is the union of the closures. -/
theorem closure_finds_least_closed (nfa : Nfa) :
    (forall states : StateSet,
      (exists turns last, turns ≤ states.size + nfa.freeMoveCount ∧
        Worklist.after? nfa turns (Worklist.begin states) = some last ∧
        last.pending = [] ∧ last.closed = nfa.closure states) ∧
      nfa.ClosedOver states (nfa.closure states) ∧
      forall set, nfa.ClosedOver states set -> nfa.closure states ⊆ set) ∧
    (forall smaller larger : StateSet, smaller ⊆ larger ->
      nfa.closure smaller ⊆ nfa.closure larger) ∧
    (forall states : StateSet, nfa.closure (nfa.closure states) = nfa.closure states) ∧
    forall first second : StateSet,
      nfa.closure (first ∪ second) = nfa.closure first ∪ nfa.closure second := by
  refine ⟨fun states => ⟨?_, closedOver_closure nfa states, fun _ => ClosedOver.closure_subset⟩,
    fun _ _ => closure_mono, closure_closure nfa, closure_union nfa⟩
  rw [← Worklist.remaining_begin]
  exact Worklist.exists_after?_eq_run nfa (Worklist.begin states)

/-- Free moves lead from state 0 to itself, twice to state 1 and back from there. -/
def freeLoops : Nfa where
  start := 0
  accepting := SortedSet.ofList [1]
  moves := [.free 0 0, .free 0 1, .free 0 1, .free 1 0, .reading 1 'a' 2]

/-- State 1 becomes pending twice, so there are three turns where five are allowed.  The set
of all three states is closed, but it is not the least. -/
theorem closure_finds_least_freeLoops :
    freeLoops.ClosedOver (SortedSet.ofList [0]) (SortedSet.ofList [0, 1, 2]) ∧
      freeLoops.closure (SortedSet.ofList [0]) ⊆ SortedSet.ofList [0, 1, 2] ∧
      SortedSet.ofList [0] ⊆ (SortedSet.ofList [0, 2] : StateSet) ∧
      freeLoops.closure (SortedSet.ofList [0]) ⊆ freeLoops.closure (SortedSet.ofList [0, 2]) ∧
      Worklist.after? freeLoops 3 (Worklist.begin (SortedSet.ofList [0])) =
        some ⟨SortedSet.ofList [0, 1], []⟩ := by
  have closed : freeLoops.ClosedOver (SortedSet.ofList [0]) (SortedSet.ofList [0, 1, 2]) := by
    constructor
    · exact SortedSet.isSubset_eq_true.mp (by decide +kernel)
    · intro source target _ listed
      have among : (source = 0 ∧ target = 0) ∨ (source = 0 ∧ target = 1) ∨
          (source = 1 ∧ target = 0) := by
        simpa [freeLoops, Transition.free, Transition.reading] using listed
      rcases among with ⟨_, isTarget⟩ | ⟨_, isTarget⟩ | ⟨_, isTarget⟩ <;> simp [isTarget]
  have within : SortedSet.ofList [0] ⊆ (SortedSet.ofList [0, 2] : StateSet) :=
    SortedSet.isSubset_eq_true.mp (by decide +kernel)
  have least := closure_finds_least_closed freeLoops
  exact ⟨closed, (least.1 _).2.2 _ closed, within, least.2.1 _ _ within, by decide +kernel⟩

end Nfa
end FiniteAutomata
