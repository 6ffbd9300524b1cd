import FiniteAutomata.Proofs.Determinization.Simulation
import FiniteAutomata.Proofs.Dfa.Distinct
import Mathlib.Data.List.Nodup
import Mathlib.Data.List.ProdSigma

namespace FiniteAutomata
namespace Nfa

/-!
# The table of an exploration

The rules that an exploration lists are for the pairs of a known set and a character of
the alphabet, set by set in the order of discovery and character by character.  Since no
set is known twice, no pair occurs twice: there is one rule for each, and there are as
many rules as pairs.  The table of the deterministic automaton is therefore the same
whether or not its rules are compared while it is put together.
-/

variable {nfa : Nfa}

/-! ## One rule for each pair -/

/-- The pairs that have a rule are all pairs of a known set and a character. -/
theorem map_trigger_rules (nfa : Nfa) (seeds : List StateSet) :
    (nfa.explore seeds).rules.map Transition.trigger =
      (nfa.explore seeds).known ×ˢ nfa.alphabet.toList := by
  rw [rules_explore, List.map_flatMap]
  simp only [rulesOf, List.map_map]
  rfl

theorem distinct_rules (nfa : Nfa) (seeds : List StateSet) :
    Distinct (nfa.explore seeds).rules := by
  rw [Distinct, map_trigger_rules]
  exact (nodup_known nfa seeds).product nfa.alphabet.nodup_toList

/-- What the rules for the known sets are to be. -/
structure Tabulates (nfa : Nfa) (known : List StateSet) (rules : List (Rule StateSet)) :
    Prop where
  /-- The rules of the sets stand one after the other, as the sets do. -/
  rules_eq : rules = known.flatMap nfa.rulesOf
  nodup : rules.Nodup
  /-- Every known set has one rule for each character of the alphabet, and there are no
  other rules. -/
  count_eq : forall state character,
    rules.countP (fun rule => rule.appliesTo state character) =
      if state ∈ known ∧ character ∈ nfa.alphabet then 1 else 0
  length_eq : rules.length = known.length * nfa.alphabet.size
  target_known : forall rule, rule ∈ rules -> rule.target ∈ known

theorem tabulates_explore (nfa : Nfa) (seeds : List StateSet) :
    Tabulates nfa (nfa.explore seeds).known (nfa.explore seeds).rules where
  rules_eq := rules_explore nfa seeds
  nodup := (distinct_rules nfa seeds).of_map
  count_eq := by
    intro state character
    rw [(distinct_rules nfa seeds).countP_appliesTo, map_trigger_rules]
    simp only [List.mem_product, SortedSet.mem_toList]
  length_eq := by
    rw [← List.length_map (f := Transition.trigger), map_trigger_rules, List.length_product]
    rfl
  target_known := by
    rintro ⟨source, symbol, target⟩ listed
    rcases mem_rules_explore.mp listed with ⟨isKnown, inAlphabet, reached⟩
    exact reached ▸ advance_mem_known isKnown inAlphabet

/-! ## The table of the deterministic automaton -/

/-- Every character of the alphabet is read in the start, so it stands in the table. -/
theorem alphabet_toDfa (nfa : Nfa) : nfa.toDfa.table.alphabet = nfa.alphabet := by
  ext character
  rw [Table.alphabet, SortedSet.mem_ofList, List.mem_map]
  constructor
  · rintro ⟨rule, listed, rfl⟩
    exact (mem_rules_toDfa.mp listed).2.1
  · intro inAlphabet
    exact ⟨⟨_, character, _⟩, mem_rules_toDfa.mpr ⟨start_mem_discovered nfa, inAlphabet, rfl⟩, rfl⟩

/-- The rules found from any seeds tabulate where the characters of the alphabet lead from
the known sets.  The table of the deterministic automaton is what these rules give, whether
they are compared with each other or trusted to be for different pairs, with an index or
without one, and both the discovered sets, in their order, and the alphabet can be read off
it. -/
theorem rules_tabulate_discoveries (nfa : Nfa) :
    (forall seeds : List StateSet,
      Tabulates nfa (nfa.explore seeds).known (nfa.explore seeds).rules) ∧
    Table.ofDistinct? (nfa.explore [nfa.closure nfa.initial]).rules = some nfa.toDfa.table ∧
    Table.ofRules (nfa.explore [nfa.closure nfa.initial]).rules = .ok nfa.toDfa.table ∧
    nfa.toDfa.states = nfa.discovered ∧
    nfa.toDfa.table.alphabet = nfa.alphabet ∧
    Rulebook.Indexes (nfa.explore [nfa.closure nfa.initial]).rules nfa.toDfa.table :=
  ⟨tabulates_explore nfa, (distinct_rules nfa _).ofDistinct?_eq, (distinct_rules nfa _).ofRules_eq,
    states_toDfa nfa, alphabet_toDfa nfa, Rulebook.indexes_of_distinct (distinct_rules nfa _)⟩

end Nfa
end FiniteAutomata
