import FiniteAutomata.Dfa.Table
import FiniteAutomata.Dictionary

namespace FiniteAutomata

universe u

/-!
# Tables with an index

A rulebook keeps an index beside its rules, so that a rule is found without a search:
for every state that has rules the index holds a dictionary of characters, and this holds
the place of the rule in the list.  A rule that is pushed goes to the end of the list, and
its place is noted.  The index therefore only ever names places that exist.

Whether the rule at a noted place is the one that a search through the list would find is
another matter.  It is if a rule is pushed only where there is none yet, which is how
`Rulebook.ofRules` uses it.
-/

/-- The places of rules, by state and then by character. -/
abbrev RuleIndex (State : Type u) := Dictionary State (Dictionary Char Nat)

namespace RuleIndex

variable {State : Type u} [DecidableEq State]

/-- The place of the rule for a state and a character, if one is noted. -/
def place? (index : RuleIndex State) (state : State) (character : Char) : Option Nat :=
  (index.get? state).bind fun places => places.get? character

/-- The index in which the place of a rule is noted.  Whatever was noted for the same
state and character is forgotten. -/
def note (index : RuleIndex State) (rule : Rule State) (place : Nat) : RuleIndex State :=
  index.insert rule.source
    (((index.get? rule.source).getD Dictionary.empty).insert rule.symbol place)

theorem place?_note (index : RuleIndex State) (rule : Rule State) (place : Nat)
    (state : State) (character : Char) :
    (index.note rule place).place? state character =
      if rule.appliesTo state character then some place else index.place? state character := by
  by_cases sameState : state = rule.source
  · subst sameState
    by_cases sameSymbol : character = rule.symbol
    · simp [place?, note, Transition.appliesTo, sameSymbol]
    · cases noted : index.get? rule.source <;>
        simp [place?, note, Transition.appliesTo, sameSymbol, noted, Ne.symm sameSymbol]
  · simp [place?, note, Transition.appliesTo, sameState, Ne.symm sameState]

end RuleIndex

/-- The rules of a deterministic automaton, with an index of their places. -/
structure Rulebook (State : Type u) [DecidableEq State] where
  /-- The rules, in the order in which they were pushed. -/
  rules : List (Rule State)
  index : RuleIndex State
  place_lt : forall state character place,
    index.place? state character = some place -> place < rules.length

namespace Rulebook

variable {State : Type u} [DecidableEq State]

/-- The rulebook without rules. -/
def empty : Rulebook State where
  rules := []
  index := Dictionary.empty
  place_lt := by
    intro state character place noted
    cases noted

/-- The rules alone, which have to be searched. -/
def table (book : Rulebook State) : Table State := ⟨book.rules⟩

/-- The rule at the place that is noted for `state` and `character`, if one is. -/
def ruleFor? (book : Rulebook State) (state : State) (character : Char) :
    Option (Rule State) :=
  match noted : book.index.place? state character with
  | none => none
  | some place => some (book.rules.get ⟨place, book.place_lt state character place noted⟩)

/-- The state that is reached from `state` on `character`, if there is a rule. -/
def next? (book : Rulebook State) (state : State) (character : Char) : Option State :=
  (book.ruleFor? state character).map Transition.target

theorem ruleFor?_eq (book : Rulebook State) (state : State) (character : Char) :
    book.ruleFor? state character =
      (book.index.place? state character).bind fun place => book.rules[place]? := by
  unfold ruleFor?
  split
  · next noted => rw [noted, Option.bind_none]
  · next place noted =>
    have inBounds := book.place_lt state character place noted
    simp [noted, List.getElem?_eq_getElem inBounds]

/-- Appends a rule and notes its place. -/
def push (book : Rulebook State) (rule : Rule State) : Rulebook State where
  rules := book.rules ++ [rule]
  index := book.index.note rule book.rules.length
  place_lt := by
    intro state character place noted
    rw [RuleIndex.place?_note] at noted
    rw [List.length_append]
    split at noted
    · cases noted
      exact Nat.lt_succ_self _
    · exact Nat.lt_succ_of_lt (book.place_lt state character place noted)

/-- The rule that was pushed last answers for its state and character, and all other
answers are what they were. -/
theorem ruleFor?_push (book : Rulebook State) (rule : Rule State) (state : State)
    (character : Char) :
    (book.push rule).ruleFor? state character =
      if rule.appliesTo state character then some rule else book.ruleFor? state character := by
  rw [ruleFor?_eq, ruleFor?_eq, push, RuleIndex.place?_note]
  by_cases applies : rule.appliesTo state character = true
  · simp [applies]
  · simp only [applies, Bool.false_eq_true, if_false]
    apply Option.bind_congr
    intro place noted
    exact List.getElem?_append_left (book.place_lt state character place noted)

/-- Pushes a rule, unless there is a rule for the same state and character already.  That
rule must then have the same target. -/
def add (book : Rulebook State) (rule : Rule State) :
    Except (Conflict State) (Rulebook State) :=
  match book.ruleFor? rule.source rule.symbol with
  | some existing =>
    if existing.target = rule.target then .ok book else .error ⟨rule.source, rule.symbol⟩
  | none => .ok (book.push rule)

/-- The rulebook of a list of rules.  The first rule that contradicts an earlier one is
reported. -/
def ofRules (rules : List (Rule State)) : Except (Conflict State) (Rulebook State) :=
  rules.foldlM add empty

/-- The rulebook of rules that are promised to be for different states and characters.  The
promise is not looked into: of two rules that break it, the index forgets the first. -/
def ofDistinct (rules : List (Rule State)) : Rulebook State := rules.foldl push empty

/-- Pushes a rule, which must be the first one for its state and character. -/
def addNew? (book : Rulebook State) (rule : Rule State) : Option (Rulebook State) :=
  match book.ruleFor? rule.source rule.symbol with
  | none => some (book.push rule)
  | some _ => none

/-- The rulebook of rules that are promised to be for different states and characters.
There is none if the promise is broken. -/
def ofDistinct? (rules : List (Rule State)) : Option (Rulebook State) :=
  rules.foldlM addNew? empty

end Rulebook

end FiniteAutomata
