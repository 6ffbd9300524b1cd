import FiniteAutomata.Pattern.Basic
import FiniteAutomata.Text.Quoted

namespace FiniteAutomata

/-!
# Parsing the written form of a pattern

A bar separates the branches of a choice, a star repeats the item before it, and round
brackets enclose a part; every other character stands for itself. A text is parsed by
descending through the kinds of phrase that stand in one another: a choice is made of
sequences, a sequence of repetitions, a repetition is an atom with its stars, and an atom
is a single character or a choice between brackets. Whether a phrase goes on is seen
from the next character alone.

A text is refused for a closing bracket without an opening one, for a star with nothing to
repeat, and for a bracket that is never closed. Positions count the bytes of the UTF-8
encoding of the text.
-/

/-- Types with values that can be read from a text. -/
class FromText (α : Type) (Fault : outParam Type) where
  fromText : String -> Except Fault α

namespace Pattern

/-- Why a text is not the written form of a pattern. -/
inductive SyntaxError where
  /-- A closing bracket without an opening one, or a star with nothing to repeat. -/
  | unexpected (character : Char) (position : Nat)
  /-- An opening bracket without a closing one. -/
  | unclosed (position : Nat)
  deriving DecidableEq, Repr, Inhabited

def SyntaxError.message : SyntaxError -> String
  | unexpected character position =>
    "unexpected " ++ Text.quotedChar character ++ " at position " ++ toString position
  | unclosed position =>
    "parenthesis opened at position " ++ toString position ++ " is never closed"

/-- A place in a text. -/
structure Cursor where
  /-- The length of what stands before. -/
  position : Nat
  /-- What follows. -/
  rest : Word
  deriving DecidableEq, Repr, Inhabited

namespace Cursor

/-- The places that are behind a given one. -/
abbrev Beyond (cursor : Cursor) : Type :=
  { later : Cursor // later.rest.length < cursor.rest.length }

/-- The places that are not before a given one. -/
abbrev Onward (cursor : Cursor) : Type :=
  { later : Cursor // later.rest.length ≤ cursor.rest.length }

/-- The next character, with the place behind it. -/
def next? (cursor : Cursor) : Option (Char × cursor.Beyond) :=
  match cursor with
  | ⟨_, []⟩ => none
  | ⟨position, character :: rest⟩ =>
    some (character, ⟨⟨position + character.utf8Size, rest⟩, Nat.lt_succ_self _⟩)

/-- The next character, provided that it passes the test. -/
def nextIf? (cursor : Cursor) (test : Char -> Bool) : Option (Char × cursor.Beyond) :=
  cursor.next?.filter fun next => test next.1

/-- What a phrase stands for and the place where it ends, which is not before the place where
it begins. -/
abbrev Parsed (start : Cursor) : Type := Except SyntaxError (Pattern × start.Onward)

/-- Repeats the pattern once for each of the stars that follow. -/
def parseStars (pattern : Pattern) (cursor : Cursor) : Pattern × cursor.Onward :=
  match cursor.nextIf? (· == '*') with
  | none => (pattern, ⟨cursor, Nat.le_refl _⟩)
  | some (_, ⟨next, isBeyond⟩) =>
    let (whole, ⟨last, isOnward⟩) := parseStars (star pattern) next
    (whole, ⟨last, Nat.le_of_lt (Nat.lt_of_le_of_lt isOnward isBeyond)⟩)
termination_by cursor.rest.length

mutual

/-- A choice is a sequence with any number of further branches. -/
def parseChoice (cursor : Cursor) : cursor.Parsed := do
  let (first, ⟨between, isOnward⟩) <- parseItems none cursor
  let (whole, ⟨last, isFurther⟩) <- parseBranches first between
  return (whole, ⟨last, Nat.le_trans isFurther isOnward⟩)
termination_by 4 * cursor.rest.length + 1

/-- As long as a bar follows, the pattern becomes a choice between itself and the sequence
behind the bar. -/
def parseBranches (pattern : Pattern) (cursor : Cursor) : cursor.Parsed :=
  match cursor.nextIf? (· == '|') with
  | none => return (pattern, ⟨cursor, Nat.le_refl _⟩)
  | some (_, ⟨next, isBeyond⟩) => do
    let (second, ⟨between, isOnward⟩) <- parseItems none next
    let (whole, ⟨last, isFurther⟩) <- parseBranches (choice pattern second) between
    return (whole, ⟨last, by omega⟩)
termination_by 4 * cursor.rest.length + 0

/-- As long as neither a bar nor a closing bracket follows, the next repetition is added to
the sequence. A sequence to which nothing has been added is empty. -/
def parseItems (pattern? : Option Pattern) (cursor : Cursor) : cursor.Parsed :=
  match cursor.nextIf? fun character => character != '|' && character != ')' with
  | none => return (pattern?.getD empty, ⟨cursor, Nat.le_refl _⟩)
  | some (character, ⟨next, isBeyond⟩) => do
    let (item, ⟨between, isOnward⟩) <- parseRepetition cursor.position character next
    let longer :=
      match pattern? with
      | none => item
      | some first => concat first item
    let (whole, ⟨last, isFurther⟩) <- parseItems (some longer) between
    return (whole, ⟨last, by omega⟩)
termination_by 4 * cursor.rest.length + 0

/-- An atom with its stars. The first character has been taken already. -/
def parseRepetition (position : Nat) (character : Char) (cursor : Cursor) : cursor.Parsed := do
  let (atom, ⟨between, isOnward⟩) <- parseAtom position character cursor
  let (whole, ⟨last, isFurther⟩) := parseStars atom between
  return (whole, ⟨last, Nat.le_trans isFurther isOnward⟩)
termination_by 4 * cursor.rest.length + 3

/-- A choice between brackets, or a single character. The first character has been taken
already. Whatever stands in the place of the closing bracket, the opening one is blamed. -/
def parseAtom (position : Nat) (character : Char) (cursor : Cursor) : cursor.Parsed :=
  match character with
  | '(' => do
    let (inner, ⟨between, isOnward⟩) <- parseChoice cursor
    match between.next? with
    | some (')', ⟨last, isBeyond⟩) => return (inner, ⟨last, by omega⟩)
    | _ => throw (.unclosed position)
  | '*' => throw (.unexpected character position)
  | _ => return (literal character, ⟨cursor, Nat.le_refl _⟩)
termination_by 4 * cursor.rest.length + 2

end

end Cursor

/-- The pattern whose written form is the given text. Nothing may follow the choice with
which the text begins. -/
def parse (text : String) : Except SyntaxError Pattern := do
  let (pattern, ⟨last, _⟩) <- Cursor.parseChoice ⟨0, text.toList⟩
  match last.next? with
  | none => return pattern
  | some (character, _) => throw (.unexpected character last.position)

instance : FromText Pattern SyntaxError := ⟨parse⟩

end Pattern

end FiniteAutomata
