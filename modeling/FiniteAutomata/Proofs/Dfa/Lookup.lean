import FiniteAutomata.Dfa.Basic

namespace FiniteAutomata

universe u

/-!
# Looking rules up in a deterministic table

A table answers with the first rule for a state and a character.  If the rules
are deterministic it does not matter which of them is the first, and a look-up is
the same as membership in the list of rules.
-/

variable {State : Type u} [DecidableEq State]

namespace Table

theorem mem_of_next? {table : Table State} {state target : State} {character : Char}
    (found : table.next? state character = some target) :
    ⟨state, character, target⟩ ∈ table.rules := by
  unfold next? ruleFor? at found
  rcases Option.map_eq_some_iff.mp found with ⟨rule, isFirst, reached⟩
  have applies := List.find?_some isFirst
  have listed := List.mem_of_find?_eq_some isFirst
  simp only [Transition.appliesTo_eq_true] at applies
  rcases applies with ⟨sameSource, sameSymbol⟩
  rcases rule with ⟨source, symbol, final⟩
  cases sameSource
  cases sameSymbol
  cases reached
  exact listed

theorem next?_eq_none_iff {table : Table State} {state : State} {character : Char} :
    table.next? state character = none ↔
      forall target, ¬ ⟨state, character, target⟩ ∈ table.rules := by
  constructor
  · intro missing target listed
    have absent := List.find?_eq_none.mp (Option.map_eq_none_iff.mp missing) _ listed
    exact absent (Transition.appliesTo_eq_true.mpr ⟨rfl, rfl⟩)
  · intro unlisted
    cases found : table.next? state character with
    | none => rfl
    | some target => exact absurd (mem_of_next? found) (unlisted target)

/-- Where the rules are deterministic a look-up finds every listed rule. -/
theorem next?_eq_some_iff {table : Table State} (deterministic : Deterministic table.rules)
    {state target : State} {character : Char} :
    table.next? state character = some target ↔
      ⟨state, character, target⟩ ∈ table.rules := by
  constructor
  · exact mem_of_next?
  · intro listed
    cases found : table.next? state character with
    | none => exact absurd listed (next?_eq_none_iff.mp found target)
    | some other =>
      have same : other = target :=
        deterministic _ _ (mem_of_next? found) listed rfl rfl
      rw [same]

end Table

namespace Dfa

theorem readWord_none (dfa : Dfa State) (word : Word) : dfa.readWord none word = none := by
  cases word <;> rfl

theorem readWord_cons (dfa : Dfa State) (state : State) (character : Char) (rest : Word) :
    dfa.readWord (some state) (character :: rest) =
      dfa.readWord (dfa.table.next? state character) rest :=
  rfl

end Dfa
end FiniteAutomata
