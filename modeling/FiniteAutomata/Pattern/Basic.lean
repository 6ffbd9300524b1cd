import FiniteAutomata.Word

namespace FiniteAutomata

/-!
# Regular patterns

A pattern is built from single characters by sequence, choice and repetition.
Sequences and choices of several parts are nested to the left.
-/

inductive Pattern where
  /-- Matches only the empty word. -/
  | empty
  /-- Matches exactly one character. -/
  | literal (character : Char)
  /-- Matches a word of `first` followed by a word of `second`. -/
  | concat (first second : Pattern)
  /-- Matches the words of either pattern. -/
  | choice (first second : Pattern)
  /-- Matches zero or more words of `inner`, one after the other. -/
  | star (inner : Pattern)
  deriving DecidableEq, Repr, Inhabited

namespace Pattern

/-- The patterns of a list one after the other, nested to the left. No patterns
at all make the empty pattern, and a single one stands for itself. -/
def sequence : List Pattern -> Pattern
  | [] => empty
  | first :: rest => rest.foldl concat first

/-- The choice between the patterns of a list, nested to the left. A single
pattern stands for itself. -/
def alternatives : List Pattern -> Pattern
  | [] => empty
  | first :: rest => rest.foldl choice first

theorem sequence_append_singleton {row : List Pattern} (nonempty : row ≠ []) (last : Pattern) :
    sequence (row ++ [last]) = concat (sequence row) last := by
  cases row with
  | nil => exact absurd rfl nonempty
  | cons first rest => exact List.foldl_append

theorem alternatives_append_singleton {row : List Pattern} (nonempty : row ≠ [])
    (last : Pattern) :
    alternatives (row ++ [last]) = choice (alternatives row) last := by
  cases row with
  | nil => exact absurd rfl nonempty
  | cons first rest => exact List.foldl_append

/-- What is gathered from the parts of a sequence one after the other is gathered from the
whole, provided that two parts in a row add nothing of their own. -/
theorem sequence_eq_flatMap {β : Type} (gather : Pattern -> List β)
    (gather_concat : forall first second,
      gather (concat first second) = gather first ++ gather second)
    {row : List Pattern} (nonempty : row ≠ []) :
    gather (sequence row) = row.flatMap gather := by
  cases row with
  | nil => exact absurd rfl nonempty
  | cons first rest =>
    clear nonempty
    induction rest generalizing first with
    | nil => exact (List.append_nil _).symm
    | cons second later inductionHypothesis =>
      have joined := inductionHypothesis (concat first second)
      rw [List.flatMap_cons, gather_concat, List.append_assoc] at joined
      exact joined

/-- A row is kept with its latest part first while it is being read. -/
theorem sequence_reverse_cons {row : List Pattern} (nonempty : row ≠ []) (last : Pattern) :
    sequence (last :: row).reverse = concat (sequence row.reverse) last := by
  rw [List.reverse_cons, sequence_append_singleton (List.reverse_ne_nil_iff.mpr nonempty)]

theorem alternatives_reverse_cons {row : List Pattern} (nonempty : row ≠ []) (last : Pattern) :
    alternatives (last :: row).reverse = choice (alternatives row.reverse) last := by
  rw [List.reverse_cons, alternatives_append_singleton (List.reverse_ne_nil_iff.mpr nonempty)]

/-- The pattern that matches exactly the given word. -/
def ofWord (word : Word) : Pattern := sequence (word.map literal)

/-- The pattern that matches exactly the given text, whatever its characters. -/
def ofText (text : String) : Pattern := ofWord text.toList

end Pattern

end FiniteAutomata
