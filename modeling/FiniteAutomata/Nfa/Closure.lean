import FiniteAutomata.Nfa.Basic

namespace FiniteAutomata

/-!
# Closing a set of states under free moves

The closure of a set holds every state that can be reached from it without
reading anything. It is computed by a worklist: the latest pending state is
added to the closed states, and the targets of its free moves become pending
unless they are closed already.

Every step either drops a pending state or uses up the free moves of a state
that was not closed before. The number of pending states and of unused free
moves together therefore falls with every step (`Worklist.remaining_step`), so
the closure of `states` takes at most as many steps as there are states and
free moves in the beginning.
-/

namespace Nfa

/-- The progress of a closure. -/
structure Worklist where
  /-- The states that are known to be in the closure and whose free moves have
  been looked at. -/
  closed : StateSet
  /-- The states that still have to be looked at, the latest one first. -/
  pending : List StateId
  deriving DecidableEq, Inhabited

namespace Worklist

/-- The worklist with which the closure of `states` begins. -/
def begin (states : StateSet) : Worklist := ⟨∅, states.toList.reverse⟩

/-- Looks at the latest pending state, if there is one. A state can be pending more than
once, and is dropped when it turns out to be closed. -/
def step? (nfa : Nfa) (worklist : Worklist) : Option Worklist :=
  match worklist.pending with
  | [] => none
  | state :: later =>
    if worklist.closed.contains state then some ⟨worklist.closed, later⟩
    else
      let closed := worklist.closed.insert state
      let reached := (nfa.targets state Symbol.free).filter fun target =>
        !closed.contains target
      some ⟨closed, reached.reverse ++ later⟩

/-- Whether the free moves of the source of `move` have not been used yet. -/
def isUnused (worklist : Worklist) (move : Move) : Bool :=
  move.symbol.isFree && !worklist.closed.contains move.source

/-- The number of pending states and unused free moves. -/
def remaining (nfa : Nfa) (worklist : Worklist) : Nat :=
  worklist.pending.length + nfa.moves.countP worklist.isUnused

private theorem countP_isUnused_insert {closed : StateSet} {state : StateId}
    (fresh : ¬ state ∈ closed) (pending reached : List StateId) (moves : List Move) :
    (moves.filter fun move => move.appliesTo state Symbol.free).length +
        moves.countP (isUnused ⟨closed.insert state, reached⟩) ≤
      moves.countP (isUnused ⟨closed, pending⟩) := by
  induction moves with
  | nil => simp
  | cons move later inductionHypothesis =>
    rw [List.filter_cons, List.countP_cons, List.countP_cons]
    by_cases applies : move.appliesTo state Symbol.free = true
    · obtain ⟨sourceSame, symbolFree⟩ := Transition.appliesTo_eq_true.mp applies
      have usedAfter : isUnused ⟨closed.insert state, reached⟩ move = false := by
        simp [isUnused, sourceSame, SortedSet.contains]
      have unusedBefore : isUnused ⟨closed, pending⟩ move = true := by
        simp [isUnused, sourceSame, symbolFree, Symbol.isFree, SortedSet.contains, fresh]
      simp only [applies, if_true, List.length_cons, usedAfter, unusedBefore]
      simp only [Bool.false_eq_true, if_false]
      omega
    · have monotone : isUnused ⟨closed.insert state, reached⟩ move = true ->
          isUnused ⟨closed, pending⟩ move = true := by
        simp only [isUnused, SortedSet.contains, Bool.and_eq_true, Bool.not_eq_true',
          decide_eq_false_iff_not, SortedSet.mem_insert, not_or]
        exact fun unused => ⟨unused.1, unused.2.2⟩
      simp only [applies, Bool.false_eq_true, if_false]
      by_cases unusedAfter : isUnused ⟨closed.insert state, reached⟩ move = true
      · simp only [unusedAfter, monotone unusedAfter, if_true]
        omega
      · simp only [unusedAfter, Bool.false_eq_true, if_false]
        omega

/-- Every step leaves less to do. -/
theorem remaining_step {nfa : Nfa} {worklist next : Worklist}
    (stepped : worklist.step? nfa = some next) :
    next.remaining nfa < worklist.remaining nfa := by
  obtain ⟨closed, pending⟩ := worklist
  cases pending with
  | nil => simp [step?] at stepped
  | cons state later =>
    by_cases isClosed : closed.contains state = true
    · simp only [step?, isClosed, if_true, Option.some.injEq] at stepped
      subst stepped
      exact Nat.add_lt_add_right (Nat.lt_succ_self later.length) _
    · simp only [step?, isClosed, Bool.false_eq_true, if_false, Option.some.injEq] at stepped
      subst stepped
      have fresh : ¬ state ∈ closed := fun member =>
        isClosed (SortedSet.contains_eq_true.mpr member)
      have fewer := countP_isUnused_insert fresh (state :: later)
        (((nfa.targets state Symbol.free).filter fun target =>
          !(closed.insert state).contains target).reverse ++ later) nfa.moves
      have filtered := List.length_filter_le
        (fun target => !(closed.insert state).contains target)
        (nfa.targets state Symbol.free)
      have targetsLength : (nfa.targets state Symbol.free).length =
          (nfa.moves.filter fun move => move.appliesTo state Symbol.free).length := by
        rw [targets, List.length_map, movesFrom]
      simp only [remaining, List.length_append, List.length_reverse, List.length_cons]
      omega

/-- Looks at pending states until none is left. -/
def run (nfa : Nfa) (worklist : Worklist) : StateSet :=
  match _stepped : worklist.step? nfa with
  | none => worklist.closed
  | some next => run nfa next
termination_by worklist.remaining nfa
decreasing_by exact remaining_step _stepped

/-- A property of the closed and pending states that free moves preserve holds of
all states that are found. -/
theorem holds_of_mem_run {nfa : Nfa} {holds : StateId -> Prop}
    (preserved : forall source target, holds source ->
      ⟨source, Symbol.free, target⟩ ∈ nfa.moves -> holds target)
    {worklist : Worklist} (closedHold : forall state, state ∈ worklist.closed -> holds state)
    (pendingHold : forall state, state ∈ worklist.pending -> holds state) :
    forall state, state ∈ worklist.run nfa -> holds state := by
  fun_induction run nfa worklist with
  | case1 worklist _ => exact closedHold
  | case2 worklist next stepped inductionHypothesis =>
    obtain ⟨closed, pending⟩ := worklist
    cases pending with
    | nil => simp [step?] at stepped
    | cons current later =>
      have currentHolds := pendingHold current List.mem_cons_self
      have laterHold : forall state, state ∈ later -> holds state := fun state member =>
        pendingHold state (List.mem_cons_of_mem current member)
      simp only [step?] at stepped
      split at stepped
      · cases stepped
        exact inductionHypothesis closedHold laterHold
      · cases stepped
        apply inductionHypothesis
        · intro state member
          rcases SortedSet.mem_insert.mp member with same | inClosed
          · exact same ▸ currentHolds
          · exact closedHold state inClosed
        · intro state member
          rcases List.mem_append.mp member with isReached | isLater
          · exact preserved current state currentHolds
              (mem_targets.mp (List.mem_filter.mp (List.mem_reverse.mp isReached)).1)
          · exact laterHold state isLater

end Worklist

/-- All states that can be reached from `states` by free moves alone, these states
included. -/
def closure (nfa : Nfa) (states : StateSet) : StateSet :=
  (Worklist.begin states).run nfa

/-- A property of the given states that free moves preserve holds of the whole
closure. -/
theorem holds_of_mem_closure {nfa : Nfa} {holds : StateId -> Prop} {states : StateSet}
    (preserved : forall source target, holds source ->
      ⟨source, Symbol.free, target⟩ ∈ nfa.moves -> holds target)
    (initiallyHold : forall state, state ∈ states -> holds state) :
    forall state, state ∈ nfa.closure states -> holds state :=
  Worklist.holds_of_mem_run preserved
    (fun state member => absurd member (SortedSet.not_mem_empty state))
    (fun state isPending => initiallyHold state (List.mem_reverse.mp isPending))

end Nfa

end FiniteAutomata
