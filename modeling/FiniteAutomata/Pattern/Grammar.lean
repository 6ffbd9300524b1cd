import FiniteAutomata.Pattern.Literals

namespace FiniteAutomata

/-!
# The grammar of written patterns

The written form is given by five nonterminals:

* a choice is one or more sequences with bars between them,
* a sequence is empty or consists of items,
* items are one or more repetitions in a row,
* a repetition is an atom followed by any number of stars,
* an atom is a choice between brackets or a character without special meaning.

`Pattern.Derives` relates each text to the tree of its derivation. Brackets leave
no trace in the tree, and both bars and rows of items are nested to the left.

A tree does not tell by which rules it was derived. `Pattern.Derivation` is the record
of the rules themselves, from which both the text and the tree can be read off.
-/

namespace Pattern

/-- The kinds of phrase of the grammar. -/
inductive Phrase where
  | choice
  | sequence
  | items
  | repetition
  | atom
  deriving DecidableEq, Repr

/-- `Derives phrase word pattern` says that the word is a phrase of the given kind
and that `pattern` is the tree of a derivation. -/
inductive Derives : Phrase -> Word -> Pattern -> Prop where
  | branch {word : Word} {pattern : Pattern} :
      Derives .sequence word pattern -> Derives .choice word pattern
  | bar {left right : Word} {first second : Pattern} :
      Derives .choice left first -> Derives .sequence right second ->
        Derives .choice (left ++ '|' :: right) (.choice first second)
  | nothing : Derives .sequence [] .empty
  | row {word : Word} {pattern : Pattern} :
      Derives .items word pattern -> Derives .sequence word pattern
  | item {word : Word} {pattern : Pattern} :
      Derives .repetition word pattern -> Derives .items word pattern
  | next {left right : Word} {first second : Pattern} :
      Derives .items left first -> Derives .repetition right second ->
        Derives .items (left ++ right) (.concat first second)
  | once {word : Word} {pattern : Pattern} :
      Derives .atom word pattern -> Derives .repetition word pattern
  | star {word : Word} {pattern : Pattern} :
      Derives .repetition word pattern ->
        Derives .repetition (word ++ ['*']) (.star pattern)
  | brackets {word : Word} {pattern : Pattern} :
      Derives .choice word pattern -> Derives .atom ('(' :: (word ++ [')'])) pattern
  | literal {character : Char} :
      isReserved character = false -> Derives .atom [character] (.literal character)

/-- The rules by which a phrase of the given kind is derived, one constructor for each. -/
inductive Derivation : Phrase -> Type where
  | branch (only : Derivation .sequence) : Derivation .choice
  | bar (earlier : Derivation .choice) (latest : Derivation .sequence) : Derivation .choice
  | nothing : Derivation .sequence
  | row (items : Derivation .items) : Derivation .sequence
  | item (only : Derivation .repetition) : Derivation .items
  | next (earlier : Derivation .items) (latest : Derivation .repetition) : Derivation .items
  | once (atom : Derivation .atom) : Derivation .repetition
  | star (inner : Derivation .repetition) : Derivation .repetition
  | brackets (inner : Derivation .choice) : Derivation .atom
  | literal (character : Char) (isLiteral : isReserved character = false) : Derivation .atom

namespace Derivation

/-- The text that is derived. -/
def text {phrase : Phrase} : Derivation phrase -> Word
  | branch only => only.text
  | bar earlier latest => earlier.text ++ '|' :: latest.text
  | nothing => []
  | row items => items.text
  | item only => only.text
  | next earlier latest => earlier.text ++ latest.text
  | once atom => atom.text
  | star inner => inner.text ++ ['*']
  | brackets inner => '(' :: (inner.text ++ [')'])
  | literal character _ => [character]

/-- The tree of the derivation. -/
def tree {phrase : Phrase} : Derivation phrase -> Pattern
  | branch only => only.tree
  | bar earlier latest => .choice earlier.tree latest.tree
  | nothing => .empty
  | row items => items.tree
  | item only => only.tree
  | next earlier latest => .concat earlier.tree latest.tree
  | once atom => atom.tree
  | star inner => .star inner.tree
  | brackets inner => inner.tree
  | literal character _ => .literal character

theorem derives {phrase : Phrase} (derivation : Derivation phrase) :
    Derives phrase derivation.text derivation.tree := by
  induction derivation with
  | branch _ inductionHypothesis => exact .branch inductionHypothesis
  | bar _ _ earlierHypothesis latestHypothesis => exact .bar earlierHypothesis latestHypothesis
  | nothing => exact .nothing
  | row _ inductionHypothesis => exact .row inductionHypothesis
  | item _ inductionHypothesis => exact .item inductionHypothesis
  | next _ _ earlierHypothesis latestHypothesis => exact .next earlierHypothesis latestHypothesis
  | once _ inductionHypothesis => exact .once inductionHypothesis
  | star _ inductionHypothesis => exact .star inductionHypothesis
  | brackets _ inductionHypothesis => exact .brackets inductionHypothesis
  | literal character isLiteral => exact .literal isLiteral

end Derivation

/-- `Derives` says that there is a derivation with the given text and tree. -/
theorem derives_iff_exists_derivation {phrase : Phrase} {word : Word} {pattern : Pattern} :
    Derives phrase word pattern ↔
      exists derivation : Derivation phrase, derivation.text = word ∧ derivation.tree = pattern := by
  constructor
  · intro derives
    induction derives with
    | branch _ inductionHypothesis =>
      rcases inductionHypothesis with ⟨only, rfl, rfl⟩
      exact ⟨.branch only, rfl, rfl⟩
    | bar _ _ earlierHypothesis latestHypothesis =>
      rcases earlierHypothesis with ⟨earlier, rfl, rfl⟩
      rcases latestHypothesis with ⟨latest, rfl, rfl⟩
      exact ⟨.bar earlier latest, rfl, rfl⟩
    | nothing => exact ⟨.nothing, rfl, rfl⟩
    | row _ inductionHypothesis =>
      rcases inductionHypothesis with ⟨items, rfl, rfl⟩
      exact ⟨.row items, rfl, rfl⟩
    | item _ inductionHypothesis =>
      rcases inductionHypothesis with ⟨only, rfl, rfl⟩
      exact ⟨.item only, rfl, rfl⟩
    | next _ _ earlierHypothesis latestHypothesis =>
      rcases earlierHypothesis with ⟨earlier, rfl, rfl⟩
      rcases latestHypothesis with ⟨latest, rfl, rfl⟩
      exact ⟨.next earlier latest, rfl, rfl⟩
    | once _ inductionHypothesis =>
      rcases inductionHypothesis with ⟨atom, rfl, rfl⟩
      exact ⟨.once atom, rfl, rfl⟩
    | star _ inductionHypothesis =>
      rcases inductionHypothesis with ⟨inner, rfl, rfl⟩
      exact ⟨.star inner, rfl, rfl⟩
    | brackets _ inductionHypothesis =>
      rcases inductionHypothesis with ⟨inner, rfl, rfl⟩
      exact ⟨.brackets inner, rfl, rfl⟩
    | literal isLiteral => exact ⟨.literal _ isLiteral, rfl, rfl⟩
  · rintro ⟨derivation, rfl, rfl⟩
    exact derivation.derives

end Pattern

end FiniteAutomata
