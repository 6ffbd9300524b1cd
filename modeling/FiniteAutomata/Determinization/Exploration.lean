import FiniteAutomata.Dfa.Table
import FiniteAutomata.Nfa.Run
import FiniteAutomata.SortedSet.Subsets

namespace FiniteAutomata

/-!
# Exploring the sets of states of a nondeterministic automaton

Reading a character leads from one set of states to another, which is closed
under free moves. An exploration begins with some sets and visits every set that
can be reached from them: the sets are expanded in the order in which they were
found, each on the characters of the alphabet in ascending order, and a set that
was not known before is appended to those that wait to be expanded. The empty
set is treated like any other.

Every set that is reached holds only targets of moves, so there are finitely
many. The number of sets that wait and of such sets that are not known yet
together falls with every expansion (`Exploration.remaining_step`).
-/

/-- How a set of states became known. -/
structure Discovery where
  state : StateSet
  source : StateSet
  /-- The character that leads from there to the set that was found. -/
  symbol : Char
  deriving DecidableEq, Inhabited

namespace Nfa

/-- The closed set of states reached from `states` on a character. -/
def advance (nfa : Nfa) (states : StateSet) (character : Char) : StateSet :=
  nfa.closure (nfa.read states character)

/-- The rules that leave `states`, one for every character of the alphabet. -/
def rulesOf (nfa : Nfa) (states : StateSet) : List (Rule StateSet) :=
  nfa.alphabet.toList.map fun character =>
    ⟨states, character, nfa.advance states character⟩

theorem advance_subset_targetStates (nfa : Nfa) (states : StateSet) (character : Char) :
    nfa.advance states character ⊆ nfa.targetStates := by
  apply holds_of_mem_closure
  · intro source target _ listed
    exact target_mem_targetStates listed
  · intro target member
    obtain ⟨source, _, listed⟩ := mem_step.mp member
    exact target_mem_targetStates listed

end Nfa

/-- The progress of an exploration. -/
structure Exploration where
  /-- The sets that have been expanded, in the order in which they were found. -/
  expanded : List StateSet := []
  /-- The sets that wait to be expanded, in the order in which they were found. -/
  pending : List StateSet := []
  /-- The rules that leave the sets that have been expanded. -/
  rules : List (Rule StateSet) := []
  /-- How the sets that did not stand at the beginning were found. -/
  discoveries : List Discovery := []
  deriving DecidableEq, Inhabited

namespace Exploration

/-- The exploration that begins with the given sets, each at its first place. -/
def begin (seeds : List StateSet) : Exploration := ⟨[], seeds.eraseDups, [], []⟩

/-- The sets that are known, in the order in which they were found. -/
def known (exploration : Exploration) : List StateSet :=
  exploration.expanded ++ exploration.pending

/-- Follows a character from `source`, and makes a set that is found there known
unless it is already. -/
def follow (nfa : Nfa) (source : StateSet) (exploration : Exploration)
    (character : Char) : Exploration :=
  let target := nfa.advance source character
  let rules := exploration.rules ++ [⟨source, character, target⟩]
  if target ∈ exploration.known then { exploration with rules }
  else
    { exploration with
      rules
      pending := exploration.pending ++ [target]
      discoveries := exploration.discoveries ++ [⟨target, source, character⟩] }

/-- Expands the set that has waited longest, if there is one. -/
def step? (nfa : Nfa) (exploration : Exploration) : Option Exploration :=
  match exploration.pending with
  | [] => none
  | current :: later =>
    some <| nfa.alphabet.toList.foldl (follow nfa current)
      { exploration with expanded := exploration.expanded ++ [current], pending := later }

/-- The number of sets of targets of moves that are not among the known ones. -/
def unknownCount (nfa : Nfa) (known : List StateSet) : Nat :=
  (SortedSet.subsets nfa.targetStates.toList).countP fun set => !decide (set ∈ known)

/-- The number of sets that wait, and of sets of targets that are not known. -/
def remaining (nfa : Nfa) (exploration : Exploration) : Nat :=
  exploration.pending.length + unknownCount nfa exploration.known

private theorem countP_lt_countP {α : Type} {fewer more : α -> Bool} {elements : List α}
    (implied : forall element, fewer element = true -> more element = true)
    {element : α} (listed : element ∈ elements) (onlyMore : more element = true)
    (notFewer : fewer element = false) : elements.countP fewer < elements.countP more := by
  induction elements with
  | nil => simp at listed
  | cons head tail inductionHypothesis =>
    have tailLe : tail.countP fewer ≤ tail.countP more :=
      List.countP_mono_left fun other _ => implied other
    rw [List.countP_cons, List.countP_cons]
    rcases List.mem_cons.mp listed with same | later
    · subst same
      simp only [onlyMore, notFewer, if_true, Bool.false_eq_true, if_false]
      omega
    · have tailLt := inductionHypothesis later
      by_cases headFewer : fewer head = true
      · simp only [headFewer, implied head headFewer, if_true]
        omega
      · simp only [headFewer, Bool.false_eq_true, if_false]
        omega

/-- A set of targets that becomes known is one unknown set fewer. -/
theorem unknownCount_append {nfa : Nfa} {known : List StateSet} {found : StateSet}
    (unknown : ¬ found ∈ known) (within : found ⊆ nfa.targetStates) :
    unknownCount nfa (known ++ [found]) < unknownCount nfa known := by
  refine countP_lt_countP ?_ (SortedSet.mem_subsets.mpr within) ?_ ?_
  · intro set stillUnknown
    simp only [Bool.not_eq_true', decide_eq_false_iff_not, List.mem_append, not_or] at *
    exact stillUnknown.1
  · simpa using unknown
  · simp

theorem remaining_follow (nfa : Nfa) (source : StateSet) (exploration : Exploration)
    (character : Char) :
    (follow nfa source exploration character).remaining nfa ≤ exploration.remaining nfa := by
  by_cases isKnown : nfa.advance source character ∈ exploration.known
  · rw [follow, if_pos isKnown]
    exact Nat.le_refl _
  · rw [follow, if_neg isKnown]
    have fewer := unknownCount_append isKnown
      (nfa.advance_subset_targetStates source character)
    simp only [remaining, known, List.length_append, List.length_singleton,
      ← List.append_assoc] at fewer ⊢
    omega

theorem remaining_foldl_follow (nfa : Nfa) (source : StateSet) (characters : List Char)
    (exploration : Exploration) :
    (characters.foldl (follow nfa source) exploration).remaining nfa ≤
      exploration.remaining nfa := by
  induction characters generalizing exploration with
  | nil => exact Nat.le_refl _
  | cons character later inductionHypothesis =>
    exact Nat.le_trans (inductionHypothesis _)
      (remaining_follow nfa source exploration character)

theorem remaining_step {nfa : Nfa} {exploration next : Exploration}
    (stepped : exploration.step? nfa = some next) :
    next.remaining nfa < exploration.remaining nfa := by
  obtain ⟨expanded, pending, rules, discoveries⟩ := exploration
  cases pending with
  | nil => simp [step?] at stepped
  | cons current later =>
    simp only [step?, Option.some.injEq] at stepped
    subst stepped
    refine Nat.lt_of_le_of_lt (remaining_foldl_follow nfa current _ _) ?_
    simp only [remaining, known, List.append_assoc, List.singleton_append, List.length_cons]
    omega

def run (nfa : Nfa) (exploration : Exploration) : Exploration :=
  match _stepped : exploration.step? nfa with
  | none => exploration
  | some next => run nfa next
termination_by exploration.remaining nfa
decreasing_by exact remaining_step _stepped

end Exploration

/-- The exploration of everything that can be reached from the given sets. -/
def Nfa.explore (nfa : Nfa) (seeds : List StateSet) : Exploration :=
  (Exploration.begin seeds).run nfa

end FiniteAutomata
