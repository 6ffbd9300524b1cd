import FiniteAutomata.Nfa.Path
import FiniteAutomata.Nfa.Run

namespace FiniteAutomata
namespace Nfa

/-!
# The closure is what free moves reach

The worklist that computes a closure keeps one invariant: a free move that
leaves a closed state leads to a closed state or to a pending one.  When nothing
is pending any more, the closed states are therefore closed under free moves.
The result contains the states with which the worklist began, and it contains
nothing that free moves do not reach, so membership in a closure is the
existence of a path that reads nothing.
-/

variable {nfa : Nfa}

/-! ## What one step of the worklist does -/

namespace Worklist

/-- Every free move that leaves a closed state leads to a state that is closed
or pending. -/
def Covers (nfa : Nfa) (worklist : Worklist) : Prop :=
  forall source target, source ∈ worklist.closed ->
    Transition.free source target ∈ nfa.moves ->
      target ∈ worklist.closed ∨ target ∈ worklist.pending

theorem step?_eq_none {worklist : Worklist} (stopped : worklist.step? nfa = none) :
    worklist.pending = [] := by
  rcases worklist with ⟨closed, pending⟩
  cases pending with
  | nil => rfl
  | cons state later =>
    unfold step? at stopped
    split at stopped
    · next noneLeft => exact noneLeft
    · split at stopped <;> cases stopped

/-- A step takes the latest pending state.  A closed state is dropped; any other
one becomes closed, and what its free moves reach becomes pending unless it is
closed by then. -/
theorem step?_cases {worklist next : Worklist} (stepped : worklist.step? nfa = some next) :
    exists state later, worklist.pending = state :: later ∧
      ((state ∈ worklist.closed ∧ next = ⟨worklist.closed, later⟩) ∨
        (¬ state ∈ worklist.closed ∧ next = ⟨worklist.closed.insert state,
          ((nfa.targets state Symbol.free).filter fun target =>
            !(worklist.closed.insert state).contains target).reverse ++ later⟩)) := by
  rcases worklist with ⟨closed, pending⟩
  cases pending with
  | nil => cases stepped
  | cons state later =>
    refine ⟨state, later, rfl, ?_⟩
    by_cases isClosed : closed.contains state = true
    · simp only [step?, isClosed, if_true, Option.some.injEq] at stepped
      exact Or.inl ⟨SortedSet.contains_eq_true.mp isClosed, stepped.symm⟩
    · simp only [step?, isClosed, Bool.false_eq_true, if_false, Option.some.injEq] at stepped
      have fresh : ¬ state ∈ closed := fun member =>
        isClosed (SortedSet.contains_eq_true.mpr member)
      exact Or.inr ⟨fresh, stepped.symm⟩

/-- No state that is closed or pending is lost by a step. -/
theorem mem_of_step {worklist next : Worklist} (stepped : worklist.step? nfa = some next)
    {state : StateId} (known : state ∈ worklist.closed ∨ state ∈ worklist.pending) :
    state ∈ next.closed ∨ state ∈ next.pending := by
  rcases step?_cases stepped with ⟨current, later, pending, dropped | expanded⟩
  · rcases dropped with ⟨isClosed, rfl⟩
    rcases known with inClosed | inPending
    · exact Or.inl inClosed
    · rw [pending] at inPending
      rcases List.mem_cons.mp inPending with same | inLater
      · exact Or.inl (same ▸ isClosed)
      · exact Or.inr inLater
  · rcases expanded with ⟨_, rfl⟩
    rcases known with inClosed | inPending
    · exact Or.inl (SortedSet.mem_insert.mpr (Or.inr inClosed))
    · rw [pending] at inPending
      rcases List.mem_cons.mp inPending with same | inLater
      · exact Or.inl (SortedSet.mem_insert.mpr (Or.inl same))
      · exact Or.inr (List.mem_append.mpr (Or.inr inLater))

theorem covers_step {worklist next : Worklist} (covers : worklist.Covers nfa)
    (stepped : worklist.step? nfa = some next) : next.Covers nfa := by
  intro source target inClosed listed
  have kept : target ∈ worklist.closed ∨ target ∈ worklist.pending ->
      target ∈ next.closed ∨ target ∈ next.pending := mem_of_step stepped
  rcases step?_cases stepped with ⟨current, later, _, dropped | expanded⟩
  · rcases dropped with ⟨_, rfl⟩
    exact kept (covers source target inClosed listed)
  · rcases expanded with ⟨_, rfl⟩
    rcases SortedSet.mem_insert.mp inClosed with same | wasClosed
    · -- The moves of the state that has just been closed: their targets were made pending.
      by_cases targetClosed : target ∈ worklist.closed.insert current
      · exact Or.inl targetClosed
      · have reached : target ∈ nfa.targets current Symbol.free :=
          mem_targets.mpr (same ▸ listed)
        have unclosed : (!(worklist.closed.insert current).contains target) = true := by
          simpa [SortedSet.contains] using targetClosed
        exact Or.inr (List.mem_append.mpr
          (Or.inl (List.mem_reverse.mpr (List.mem_filter.mpr ⟨reached, unclosed⟩))))
    · exact kept (covers source target wasClosed listed)

/-- All states that were closed or pending are found. -/
theorem mem_run {worklist : Worklist} {state : StateId}
    (known : state ∈ worklist.closed ∨ state ∈ worklist.pending) :
    state ∈ worklist.run nfa := by
  fun_induction run nfa worklist with
  | case1 worklist stopped =>
    rcases known with inClosed | inPending
    · exact inClosed
    · rw [step?_eq_none stopped] at inPending
      exact absurd inPending List.not_mem_nil
  | case2 worklist next stepped inductionHypothesis =>
    exact inductionHypothesis (mem_of_step stepped known)

/-- Free moves do not lead out of what is found. -/
theorem free_mem_run {worklist : Worklist} (covers : worklist.Covers nfa)
    {source target : StateId} (member : source ∈ worklist.run nfa)
    (listed : Transition.free source target ∈ nfa.moves) : target ∈ worklist.run nfa := by
  fun_induction run nfa worklist with
  | case1 worklist stopped =>
    rcases covers source target member listed with inClosed | inPending
    · exact inClosed
    · rw [step?_eq_none stopped] at inPending
      exact absurd inPending List.not_mem_nil
  | case2 worklist next stepped inductionHypothesis =>
    exact inductionHypothesis (covers_step covers stepped) member

end Worklist

/-! ## Membership in a closure -/

theorem subset_closure (nfa : Nfa) (states : StateSet) : states ⊆ nfa.closure states :=
  fun _ member => Worklist.mem_run (Or.inr (List.mem_reverse.mpr member))

theorem free_mem_closure {states : StateSet} {source target : StateId}
    (member : source ∈ nfa.closure states)
    (listed : Transition.free source target ∈ nfa.moves) : target ∈ nfa.closure states := by
  refine Worklist.free_mem_run ?_ member listed
  intro source target inClosed
  exact absurd inClosed (SortedSet.not_mem_empty source)

/-- A path that reads nothing does not leave a closure. -/
theorem mem_closure_of_path {states : StateSet} {source target : StateId} {word : Word}
    (path : nfa.Path source word target) (nothing : word = [])
    (member : source ∈ nfa.closure states) : target ∈ nfa.closure states := by
  induction path with
  | stay state => exact member
  | free listed _ inductionHypothesis =>
    exact inductionHypothesis nothing (free_mem_closure member listed)
  | read _ _ _ => cases nothing

private theorem exists_path_of_mem_closure {states : StateSet} :
    forall target, target ∈ nfa.closure states ->
      exists source, source ∈ states ∧ nfa.Path source [] target := by
  apply holds_of_mem_closure
  · rintro source target ⟨first, member, path⟩ listed
    have last : nfa.Path source [] target := Path.free listed (Path.stay target)
    exact ⟨first, member, path.append last⟩
  · intro state member
    exact ⟨state, member, Path.stay state⟩

/-- The closure of a set holds exactly the states to which a path that reads
nothing leads from a member of the set. -/
theorem mem_closure_iff_path {states : StateSet} {target : StateId} :
    target ∈ nfa.closure states ↔
      exists source, source ∈ states ∧ nfa.Path source [] target := by
  constructor
  · exact exists_path_of_mem_closure target
  · rintro ⟨source, member, path⟩
    exact mem_closure_of_path path rfl (subset_closure nfa states source member)

/-- Closing a set again adds nothing. -/
theorem closure_closure (nfa : Nfa) (states : StateSet) :
    nfa.closure (nfa.closure states) = nfa.closure states := by
  ext target
  constructor
  · intro member
    rcases mem_closure_iff_path.mp member with ⟨source, inClosure, path⟩
    exact mem_closure_of_path path rfl inClosure
  · exact subset_closure nfa (nfa.closure states) target

end Nfa
end FiniteAutomata
