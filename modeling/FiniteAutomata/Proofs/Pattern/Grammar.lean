import FiniteAutomata.Proofs.Pattern.Derivations
import FiniteAutomata.Proofs.Pattern.Parsing
import FiniteAutomata.Proofs.Pattern.Progress

namespace FiniteAutomata
namespace Pattern

/-!
# Reading follows the grammar

A text is read as a pattern exactly if the pattern is the tree of a derivation of the
text.  What is read has a derivation because the reader only ever holds derived pieces.
In the other direction each phrase does to a group what its kind asks for: repetitions
and atoms add one item, sequences add the items of one branch, and a choice makes up the
whole group.

As a text has at most one derivation, there is also at most one tree to be read.
-/

/-- What a phrase with the given tree does when it is read. -/
def IsRead (word : Word) (pattern : Pattern) : Phrase -> Prop
  | .choice => exists group, Consumes word {} group ∧ group.pattern = pattern
  | .sequence => forall branches, exists items,
      Consumes word ⟨branches, []⟩ ⟨branches, items⟩ ∧ sequence items.reverse = pattern
  | .items => forall branches, exists items, items ≠ [] ∧
      Consumes word ⟨branches, []⟩ ⟨branches, items⟩ ∧ sequence items.reverse = pattern
  | .repetition => forall group, Consumes word group (group.push pattern)
  | .atom => forall group, Consumes word group (group.push pattern)

theorem isRead_bar {left right : Word} {first second : Pattern}
    (earlier : IsRead left first .choice) (latest : IsRead right second .sequence) :
    IsRead (left ++ '|' :: right) (.choice first second) .choice := by
  rcases earlier with ⟨group, leftConsumes, isFirst⟩
  rcases latest group.endBranch.branches with ⟨items, rightConsumes, isSecond⟩
  refine ⟨_, leftConsumes.append ((consumes_bar group).append rightConsumes), ?_⟩
  change alternatives (sequence items.reverse :: group.branch :: group.branches).reverse = _
  rw [alternatives_reverse_cons (List.cons_ne_nil _ _), isSecond, ← isFirst]
  rfl

theorem isRead_next {left right : Word} {first second : Pattern}
    (earlier : IsRead left first .items) (latest : IsRead right second .repetition) :
    IsRead (left ++ right) (.concat first second) .items := by
  intro branches
  rcases earlier branches with ⟨items, nonempty, leftConsumes, isFirst⟩
  refine ⟨second :: items, List.cons_ne_nil _ _, leftConsumes.append (latest _), ?_⟩
  rw [sequence_reverse_cons nonempty, isFirst]

theorem Derives.isRead {phrase : Phrase} {word : Word} {pattern : Pattern}
    (derives : Derives phrase word pattern) : IsRead word pattern phrase := by
  induction derives with
  | branch _ inductionHypothesis =>
    rcases inductionHypothesis [] with ⟨items, consumes, isBranch⟩
    exact ⟨_, consumes, isBranch⟩
  | bar _ _ earlierHypothesis latestHypothesis =>
    exact isRead_bar earlierHypothesis latestHypothesis
  | nothing => exact fun branches => ⟨[], consumes_nil _, rfl⟩
  | row _ inductionHypothesis =>
    intro branches
    rcases inductionHypothesis branches with ⟨items, _, consumes, isRow⟩
    exact ⟨items, consumes, isRow⟩
  | item _ inductionHypothesis =>
    exact fun branches => ⟨_, List.cons_ne_nil _ _, inductionHypothesis ⟨branches, []⟩, rfl⟩
  | next _ _ earlierHypothesis latestHypothesis =>
    exact isRead_next earlierHypothesis latestHypothesis
  | once _ inductionHypothesis => exact inductionHypothesis
  | star _ inductionHypothesis =>
    exact fun group => (inductionHypothesis group).append (consumes_star group _)
  | brackets _ inductionHypothesis =>
    rcases inductionHypothesis with ⟨inner, consumes, isPattern⟩
    intro group
    rw [← isPattern]
    exact consumes.brackets group
  | literal isLiteral => exact fun group => consumes_literal group isLiteral

theorem parse_eq_ok_iff_derives {text : String} {pattern : Pattern} :
    parse text = .ok pattern ↔ Derives .choice text.toList pattern := by
  rw [parse_eq_read]
  constructor
  · intro isResult
    have verdict := verdict_read text.toList
    rw [isResult] at verdict
    cases verdict with
    | accepted _ _ derives => exact derives
  · intro derives
    rcases derives.isRead with ⟨group, consumes, isPattern⟩
    rw [← isPattern]
    exact consumes.read_eq

/-- A text is read as a pattern exactly if the pattern is the tree of a derivation of the
whole text, and no text has two derivations. -/
theorem reading_follows_grammar (text : String) :
    (forall pattern, parse text = .ok pattern ↔
      exists derivation : Derivation .choice,
        derivation.text = text.toList ∧ derivation.tree = pattern) ∧
    (forall first second : Derivation .choice,
      first.text = text.toList -> second.text = text.toList -> first = second) := by
  constructor
  · intro pattern
    rw [← derives_iff_exists_derivation]
    exact parse_eq_ok_iff_derives
  · intro first second firstText secondText
    exact first.eq_of_text_eq second (firstText.trans secondText.symm)

/-- The derivation of `(a|)*b`, with an empty branch under a star. -/
def starredChoice : Derivation .choice :=
  .branch (.row (.next
    (.item (.star (.once (.brackets
      (.bar (.branch (.row (.item (.once (.literal 'a' rfl))))) .nothing)))))
    (.once (.literal 'b' rfl))))

theorem reading_follows_grammar_starredChoice :
    starredChoice.text = "(a|)*b".toList ∧ parse "(a|)*b" = .ok starredChoice.tree ∧
      forall other : Derivation .choice,
        other.text = "(a|)*b".toList -> other = starredChoice := by
  have isText : starredChoice.text = "(a|)*b".toList := by decide
  have follows := reading_follows_grammar "(a|)*b"
  refine ⟨isText, (follows.1 _).mpr ⟨starredChoice, isText, rfl⟩, fun other otherText => ?_⟩
  exact follows.2 other starredChoice otherText isText

end Pattern
end FiniteAutomata
