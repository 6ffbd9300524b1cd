import FiniteAutomata.Pattern.Basic

namespace FiniteAutomata

/-!
# The written form of a pattern

A pattern is written with as few brackets as its nesting allows: a part is put
between brackets only where it binds less tightly than its place requires. The
empty pattern is written as nothing at all, except under a star, which needs
something to stand after.
-/

namespace Pattern

/-- How tightly a pattern binds. A choice binds least, then a sequence, then a
repetition; a single character and the empty pattern cannot fall apart. -/
def precedence : Pattern -> Nat
  | choice _ _ => 0
  | concat _ _ => 1
  | star _ => 2
  | empty => 3
  | literal _ => 3

/-- What is written for a part where something of precedence `context` is required: the part
as it is written on its own, between brackets if it binds less tightly than that. -/
def bracketed (part : Pattern) (context : Nat) (written : List Char) : List Char :=
  if part.precedence < context then '(' :: (written ++ [')']) else written

/-- The characters of the written form. The two parts of a choice or sequence and
the body of a repetition stand where something of the precedence of the whole is
required. -/
def chars : Pattern -> List Char
  | empty => []
  | literal character => [character]
  | concat first second =>
    let context := (concat first second).precedence
    bracketed first context first.chars ++ bracketed second context second.chars
  | choice first second =>
    let context := (choice first second).precedence
    bracketed first context first.chars ++ '|' :: bracketed second context second.chars
  | star empty => ['(', ')', '*']
  | star inner => bracketed inner (star inner).precedence inner.chars ++ ['*']

/-- The characters of the pattern where something of precedence `context` is
required. -/
def charsWithin (pattern : Pattern) (context : Nat) : List Char :=
  bracketed pattern context pattern.chars

theorem charsWithin_of_le {pattern : Pattern} {context : Nat}
    (tight : context ≤ pattern.precedence) : pattern.charsWithin context = pattern.chars :=
  if_neg (Nat.not_lt_of_le tight)

theorem charsWithin_of_lt {pattern : Pattern} {context : Nat}
    (loose : pattern.precedence < context) :
    pattern.charsWithin context = '(' :: (pattern.chars ++ [')']) :=
  if_pos loose

theorem chars_concat (first second : Pattern) :
    (concat first second).chars = first.charsWithin 1 ++ second.charsWithin 1 :=
  rfl

theorem chars_choice (first second : Pattern) :
    (choice first second).chars = first.chars ++ '|' :: second.chars := by
  change first.charsWithin 0 ++ '|' :: second.charsWithin 0 = _
  rw [charsWithin_of_le (Nat.zero_le _), charsWithin_of_le (Nat.zero_le _)]

theorem chars_star {inner : Pattern} (notEmpty : inner ≠ empty) :
    (star inner).chars = inner.charsWithin 2 ++ ['*'] := by
  rw [chars]
  · rfl
  · exact notEmpty

/-- The written form where something of precedence `context` is required. -/
def renderWithin (pattern : Pattern) (context : Nat) : String :=
  String.ofList (pattern.charsWithin context)

/-- The written form of a pattern. -/
def render (pattern : Pattern) : String := String.ofList pattern.chars

/-- Nothing binds less tightly than a choice, so this precedence requires no brackets. -/
theorem renderWithin_zero (pattern : Pattern) : pattern.renderWithin 0 = pattern.render :=
  congrArg String.ofList (charsWithin_of_le (Nat.zero_le _))

instance : ToString Pattern := ⟨render⟩

end Pattern

end FiniteAutomata
