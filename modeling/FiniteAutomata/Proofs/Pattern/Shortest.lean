import FiniteAutomata.Pattern.Faults
import FiniteAutomata.Proofs.Pattern.Brackets
import FiniteAutomata.Proofs.Pattern.Grammar

namespace FiniteAutomata
namespace Pattern

/-!
# The written form is the shortest

A pattern can be read from many texts, which differ in their brackets.  Whatever brackets
the written form has can be found in each of these texts at the same place: where a text
is read as a choice in a sequence or as something that falls apart under a star, the
grammar leaves no other way than brackets.  So the written form comes out of any such text
by deleting brackets, and it is not longer.

The induction follows the derivation of the text.  Each phrase of the grammar is a context
in which the tree of the phrase is written with the brackets that the context asks for.
-/

/-! ## Deleting brackets -/

def isBracket (character : Char) : Bool := character == '(' || character == ')'

/-- The word `after` is what remains of `before` when some brackets are deleted. -/
inductive DropsBrackets : Word -> Word -> Prop where
  | done : DropsBrackets [] []
  | keep (character : Char) {before after : Word} :
      DropsBrackets before after -> DropsBrackets (character :: before) (character :: after)
  | drop {character : Char} {before after : Word} :
      isBracket character = true -> DropsBrackets before after ->
        DropsBrackets (character :: before) after

namespace DropsBrackets

theorem same (word : Word) : DropsBrackets word word := by
  induction word with
  | nil => exact .done
  | cons character rest inductionHypothesis => exact .keep character inductionHypothesis

theorem append {left right leftAfter rightAfter : Word} (first : DropsBrackets left leftAfter)
    (second : DropsBrackets right rightAfter) :
    DropsBrackets (left ++ right) (leftAfter ++ rightAfter) := by
  induction first with
  | done => exact second
  | keep character _ inductionHypothesis => exact .keep character inductionHypothesis
  | drop bracket _ inductionHypothesis => exact .drop bracket inductionHypothesis

/-- Deleting brackets twice is deleting brackets. -/
theorem trans {before middle after : Word} (first : DropsBrackets before middle)
    (second : DropsBrackets middle after) : DropsBrackets before after := by
  induction first generalizing after with
  | done => exact second
  | keep character _ inductionHypothesis =>
    cases second with
    | keep _ rest => exact .keep character (inductionHypothesis rest)
    | drop bracket rest => exact .drop bracket (inductionHypothesis rest)
  | drop bracket _ inductionHypothesis => exact .drop bracket (inductionHypothesis second)

theorem brackets {before after : Word} (drops : DropsBrackets before after) :
    DropsBrackets ('(' :: (before ++ [')'])) ('(' :: (after ++ [')'])) :=
  .keep '(' (drops.append (same [')']))

/-- Brackets around a text can be deleted together with those inside. -/
theorem strip {before after : Word} (drops : DropsBrackets before after) :
    DropsBrackets ('(' :: (before ++ [')'])) after := by
  have closing : DropsBrackets [')'] [] := .drop rfl .done
  have inner := drops.append closing
  rw [List.append_nil] at inner
  exact .drop rfl inner

/-! ### What deleting brackets leaves -/

theorem filter_eq {before after : Word} (drops : DropsBrackets before after) :
    after.filter (fun character => !isBracket character) =
      before.filter (fun character => !isBracket character) := by
  induction drops with
  | done => rfl
  | keep character _ inductionHypothesis =>
    rw [List.filter_cons, List.filter_cons, inductionHypothesis]
  | drop bracket _ inductionHypothesis =>
    rw [inductionHypothesis, List.filter_cons, bracket]
    rfl

theorem length_le {before after : Word} (drops : DropsBrackets before after) :
    after.length ≤ before.length := by
  induction drops with
  | done => exact Nat.le_refl _
  | keep character _ inductionHypothesis => exact Nat.succ_le_succ inductionHypothesis
  | drop bracket _ inductionHypothesis => exact Nat.le_succ_of_le inductionHypothesis

theorem offset_cons (character : Char) (rest : Word) :
    offset (character :: rest) = character.utf8Size + offset rest := by
  unfold offset
  rw [String.ofList_cons, String.utf8ByteSize_append, String.utf8ByteSize_singleton]

theorem offset_le {before after : Word} (drops : DropsBrackets before after) :
    offset after ≤ offset before := by
  induction drops with
  | done => exact Nat.le_refl _
  | keep character _ inductionHypothesis =>
    rw [offset_cons, offset_cons]
    exact Nat.add_le_add_left inductionHypothesis _
  | drop bracket _ inductionHypothesis =>
    rw [offset_cons]
    exact Nat.le_trans inductionHypothesis (Nat.le_add_left _ _)

end DropsBrackets

/-! ## The written form in its contexts -/

/-- How a pattern is written where a star can follow. -/
def operandChars (pattern : Pattern) : Word :=
  if pattern.isUnit then pattern.chars else '(' :: (pattern.chars ++ [')'])

theorem chars_star_eq (inner : Pattern) : (star inner).chars = inner.operandChars ++ ['*'] := by
  unfold operandChars
  cases unit : inner.isUnit with
  | true => exact chars_star_of_isUnit unit
  | false => exact chars_star_of_not_isUnit unit

/-- How a pattern is written where a phrase of the given kind is expected. -/
def charsAs (pattern : Pattern) : Phrase -> Word
  | .choice => pattern.chars
  | .sequence => pattern.chars
  | .items => pattern.charsWithin 1
  | .repetition => pattern.operandChars
  | .atom => pattern.operandChars

theorem drops_charsWithin (pattern : Pattern) (context : Nat) :
    DropsBrackets (pattern.charsWithin context) pattern.chars := by
  by_cases loose : pattern.precedence < context
  · rw [charsWithin_of_lt loose]
    exact (DropsBrackets.same _).strip
  · rw [charsWithin_of_le (Nat.le_of_not_lt loose)]
    exact .same _

/-- A choice has brackets in a sequence, and then also under a star. -/
theorem drops_operandChars (pattern : Pattern) :
    DropsBrackets pattern.operandChars (pattern.charsWithin 1) := by
  cases isChoice : pattern.isChoice with
  | true =>
    rw [charsWithin_one_of_choice isChoice, operandChars, isUnit_of_isChoice isChoice]
    exact .same _
  | false =>
    rw [charsWithin_one_of_not_choice isChoice, operandChars]
    cases pattern.isUnit with
    | true => exact .same _
    | false => exact (DropsBrackets.same _).strip

/-- The brackets of an atom are at least those that its place asks for. -/
theorem DropsBrackets.operand {word : Word} {pattern : Pattern}
    (drops : DropsBrackets word pattern.chars) :
    DropsBrackets ('(' :: (word ++ [')'])) pattern.operandChars := by
  unfold operandChars
  cases pattern.isUnit with
  | true => exact drops.strip
  | false => exact drops.brackets

/-- Every phrase has the brackets with which its tree is written in that place. -/
theorem Derives.dropsBrackets {phrase : Phrase} {word : Word} {pattern : Pattern}
    (derives : Derives phrase word pattern) : DropsBrackets word (pattern.charsAs phrase) := by
  induction derives with
  | branch _ inductionHypothesis => exact inductionHypothesis
  | bar _ _ earlierHypothesis latestHypothesis =>
    rw [charsAs, chars_choice]
    exact earlierHypothesis.append (.keep '|' latestHypothesis)
  | nothing => exact .done
  | row _ inductionHypothesis => exact inductionHypothesis.trans (drops_charsWithin _ _)
  | item _ inductionHypothesis => exact inductionHypothesis.trans (drops_operandChars _)
  | next _ _ earlierHypothesis latestHypothesis =>
    rw [charsAs, charsWithin_one_concat]
    exact earlierHypothesis.append (latestHypothesis.trans (drops_operandChars _))
  | once _ inductionHypothesis => exact inductionHypothesis
  | @star _ inner _ inductionHypothesis =>
    change DropsBrackets _ (Pattern.star inner).chars
    rw [chars_star_eq]
    exact inductionHypothesis.append (.same ['*'])
  | brackets _ inductionHypothesis => exact inductionHypothesis.operand
  | literal _ => exact .same _

/-- A pattern that is read from a text is written as this text without some of its brackets.
All other characters stay, in the same order, and the written form is not longer than the
text, in characters or in bytes. -/
theorem rendering_only_drops_brackets (text : String) (pattern : Pattern)
    (isRead : parse text = .ok pattern) :
    DropsBrackets text.toList pattern.render.toList ∧
    pattern.render.toList.filter (fun character => !isBracket character) =
      text.toList.filter (fun character => !isBracket character) ∧
    pattern.render.length ≤ text.length ∧
    pattern.render.utf8ByteSize ≤ text.utf8ByteSize := by
  have derives : Derives .choice text.toList pattern := parse_eq_ok_iff_derives.mp isRead
  have drops : DropsBrackets text.toList pattern.render.toList := by
    rw [render, String.toList_ofList]
    exact derives.dropsBrackets
  have lengths := drops.length_le
  have sizes := drops.offset_le
  rw [String.length_toList, String.length_toList] at lengths
  rw [offset, offset, String.ofList_toList, String.ofList_toList] at sizes
  exact ⟨drops, drops.filter_eq, lengths, sizes⟩

/-- A literal, an empty group and two pairs around one choice lose their brackets; the choice
under the star keeps one pair. -/
theorem rendering_only_drops_redundantBrackets :
    parse "(a)()((é|()))*" =
        .ok (.concat (.concat (.literal 'a') .empty) (.star (.choice (.literal 'é') .empty))) ∧
      DropsBrackets "(a)()((é|()))*".toList "a(é|)*".toList := by
  have isRead : parse "(a)()((é|()))*" =
      .ok (.concat (.concat (.literal 'a') .empty) (.star (.choice (.literal 'é') .empty))) := by
    rw [parse_eq_read]
    rfl
  have drops := (rendering_only_drops_brackets _ _ isRead).1
  exact ⟨isRead, drops⟩

end Pattern
end FiniteAutomata
