import FiniteAutomata.Proofs.Determinization.Exploration
import FiniteAutomata.Proofs.Occurrences

namespace FiniteAutomata

/-!
# The rules tell in which order the sets were found

Going through the seeds and then through the rules, source before target, one meets
every known set, and meets it for the first time when it is its turn in the order of
discovery.  The exploration keeps this up rule by rule: a rule leaves a set that is
known already, and its target is appended exactly if it was not met before.  So no set
is listed twice, and whoever has only the rules can still tell in which order the sets
were found.
-/

namespace Exploration

variable {nfa : Nfa} {seeds : List StateSet}

/-! ## The sets that have been met -/

/-- The seeds and then the two sets of every rule, as often as they are mentioned. -/
def mentioned (seeds : List StateSet) (exploration : Exploration) : List StateSet :=
  seeds ++ exploration.rules.flatMap fun rule => [rule.source, rule.target]

/-- The known sets are those that are mentioned, each at its first mention. -/
def InOrder (seeds : List StateSet) (exploration : Exploration) : Prop :=
  exploration.known = (exploration.mentioned seeds).eraseDups

theorem InOrder.begin (seeds : List StateSet) : (Exploration.begin seeds).InOrder seeds := by
  simp [InOrder, mentioned, Exploration.begin, known]

theorem InOrder.follow {exploration : Exploration} (inOrder : exploration.InOrder seeds)
    {source : StateSet} (sourceKnown : source ∈ exploration.known) (character : Char) :
    (follow nfa source exploration character).InOrder seeds := by
  have mentions : (exploration.mentioned seeds ++ [source]).eraseDups = exploration.known := by
    rw [InOrder] at inOrder
    rw [inOrder, List.mem_eraseDups] at sourceKnown
    rw [eraseDups_append_of_mem sourceKnown, inOrder]
  have mentionsTarget : (Exploration.follow nfa source exploration character).mentioned seeds =
      exploration.mentioned seeds ++ [source] ++ [nfa.advance source character] := by
    rw [mentioned, (follow_follows source exploration character).rules_eq]
    simp [mentioned]
  by_cases isKnown : nfa.advance source character ∈ exploration.known
  · have met := isKnown
    rw [← mentions, List.mem_eraseDups] at met
    rw [InOrder, mentionsTarget, eraseDups_append_of_mem met, mentions, follow_of_known isKnown]
    rfl
  · have isNew := isKnown
    rw [← mentions, List.mem_eraseDups] at isNew
    rw [InOrder, mentionsTarget, eraseDups_append_of_not_mem isNew, mentions,
      follow_of_unknown isKnown]
    exact (List.append_assoc _ _ _).symm

theorem InOrder.run {exploration : Exploration} (inOrder : exploration.InOrder seeds) :
    (exploration.run nfa).InOrder seeds := by
  apply holds_run _ _ inOrder
  · intro exploration current later waits inOrder
    exact (known_of_waits waits).trans inOrder
  · intro source exploration character sourceKnown inOrder
    exact inOrder.follow sourceKnown character

end Exploration

namespace Nfa

/-! ## The whole exploration -/

/-- The known sets, in the order of discovery, are the seeds and what the rules mention. -/
theorem known_explore (nfa : Nfa) (seeds : List StateSet) :
    (nfa.explore seeds).known =
      (seeds ++ (nfa.explore seeds).rules.flatMap fun rule =>
        [rule.source, rule.target]).eraseDups :=
  (Exploration.InOrder.begin seeds).run

theorem nodup_known (nfa : Nfa) (seeds : List StateSet) : (nfa.explore seeds).known.Nodup := by
  rw [known_explore]
  exact nodup_eraseDups _

end Nfa
end FiniteAutomata
