import FiniteAutomata.StateSet
import FiniteAutomata.Text.Formless

namespace FiniteAutomata
namespace Text

/-!
# Quoted characters and texts

A quoted text stands between two delimiters and shows every character in a
visible way: a backslash and the delimiter itself are escaped, a few control
characters have a letter of their own, and a character without a visible form is
given by its code point. Everything else stands for itself.
-/

/-- The code point in lower-case hexadecimal digits without leading zeros, between
braces after a backslash and the letter `u`. -/
def codePointEscape (character : Char) : List Char :=
  '\x5c' :: 'u' :: '\x7b' :: (Nat.toDigits 16 character.toNat ++ ['\x7d'])

/-- How a character is shown inside a text that is delimited by `delimiter`. -/
def quotedForm (delimiter character : Char) : List Char :=
  if character = '\x00' then ['\x5c', '0']
  else if character = '\t' then ['\x5c', 't']
  else if character = '\r' then ['\x5c', 'r']
  else if character = '\n' then ['\x5c', 'n']
  else if character = '\x5c' ∨ character = delimiter then ['\x5c', character]
  else if isFormless character then codePointEscape character
  else [character]

/-- The delimiter is escaped, and only the delimiter. -/
example : quotedForm '\x27' '\x27' = ['\x5c', '\x27'] ∧
    quotedForm '\x22' '\x27' = ['\x27'] := by
  decide +kernel

/-- A combining character is shown by its number, a letter by itself. -/
example : quotedForm '\x27' '\u0301' = ['\x5c', 'u', '\x7b', '3', '0', '1', '\x7d'] ∧
    quotedForm '\x27' 'é' = ['é'] := by
  decide +kernel

/-- A blank letter is shown by its number, a sound mark with a width by itself. -/
example : quotedForm '\x27' '\u3164' =
      ['\x5c', 'u', '\x7b', '3', '1', '6', '4', '\x7d'] ∧
    quotedForm '\x27' '\uff9e' = ['\uff9e'] := by
  decide +kernel

/-- A text between two delimiters, every character in its quoted form. -/
def delimited (delimiter : Char) (characters : List Char) : String :=
  String.ofList
    (delimiter :: (characters.flatMap (quotedForm delimiter) ++ [delimiter]))

/-- A single character between apostrophes. -/
def quotedChar (character : Char) : String := delimited '\x27' [character]

def quotedString (text : String) : String := delimited '\x22' text.toList

end Text

universe u

/-- Types whose values can be named inside a message. -/
class Quoted (α : Type u) where
  quoted : α -> String

instance : Quoted StateId := ⟨toString⟩

instance : Quoted String := ⟨Text.quotedString⟩

instance : Quoted StateSet := ⟨SortedSet.text⟩

end FiniteAutomata
