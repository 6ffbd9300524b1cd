import FiniteAutomata.Pattern.Parser

namespace FiniteAutomata

/-!
# Reading a pattern in one pass

A pattern can be read from its written form without descending into it, character by
character from left to right. The reader keeps the part it is in and, for every open
bracket, the part around that bracket.

Two things can go wrong: a character that cannot stand where it does, which is
refused as soon as it is met, and a bracket that is still open at the end.
-/

namespace Pattern

/-- The part of a text between two brackets, as far as it has been read. -/
structure Group where
  /-- The branches that a bar has ended, the latest first. -/
  branches : List Pattern := []
  /-- The items of the branch that is being read, the latest first. -/
  items : List Pattern := []
  deriving DecidableEq, Repr, Inhabited

namespace Group

/-- The branch that is being read, as a sequence of its items. -/
def branch (group : Group) : Pattern := sequence group.items.reverse

/-- The branch that is being read, unless nothing has been read of it. -/
def branch? (group : Group) : Option Pattern :=
  match group.items with
  | [] => none
  | _ => some group.branch

/-- The choice between all branches, the one that is being read being the last. -/
def pattern (group : Group) : Pattern :=
  alternatives (group.branch :: group.branches).reverse

def push (group : Group) (item : Pattern) : Group :=
  ⟨group.branches, item :: group.items⟩

/-- The group after a bar: the branch is ended and the next one is begun. -/
def endBranch (group : Group) : Group := ⟨group.branch :: group.branches, []⟩

/-- The group after a star, which repeats the latest item of the branch. There is
none at the beginning of a branch. -/
def starLatest? (group : Group) : Option Group :=
  match group.items with
  | [] => none
  | latest :: earlier => some ⟨group.branches, star latest :: earlier⟩

end Group

/-- What is known after reading the beginning of a text. -/
structure Reader where
  position : Nat := 0
  /-- The part after the latest bracket that is still open. -/
  group : Group := {}
  /-- The position of every open bracket with the part that surrounds it, the
  innermost first. -/
  enclosing : List (Nat × Group) := []
  deriving DecidableEq, Repr, Inhabited

namespace Reader

def feed (reader : Reader) (character : Char) : Except SyntaxError Reader :=
  let position := reader.position + character.utf8Size
  match character with
  | '(' => .ok ⟨position, {}, (reader.position, reader.group) :: reader.enclosing⟩
  | ')' =>
    match reader.enclosing with
    | [] => .error (.unexpected character reader.position)
    | (_, surrounding) :: enclosing =>
      .ok ⟨position, surrounding.push reader.group.pattern, enclosing⟩
  | '|' => .ok ⟨position, reader.group.endBranch, reader.enclosing⟩
  | '*' =>
    match reader.group.starLatest? with
    | none => .error (.unexpected character reader.position)
    | some group => .ok ⟨position, group, reader.enclosing⟩
  | _ => .ok ⟨position, reader.group.push (literal character), reader.enclosing⟩

/-- The pattern that has been read, provided that every bracket is closed. -/
def finish (reader : Reader) : Except SyntaxError Pattern :=
  match reader.enclosing with
  | [] => .ok reader.group.pattern
  | (opened, _) :: _ => .error (.unclosed opened)

/-- The pattern that has been read after all characters of a word. -/
def run (reader : Reader) (word : Word) : Except SyntaxError Pattern := do
  let last <- word.foldlM feed reader
  last.finish

theorem run_cons (reader : Reader) (character : Char) (rest : Word) :
    reader.run (character :: rest) = reader.feed character >>= fun next => next.run rest := by
  rw [run, List.foldlM_cons]
  exact bind_assoc _ _ _

end Reader

/-- The pattern whose written form is the given word. -/
def read (word : Word) : Except SyntaxError Pattern := Reader.run {} word

end Pattern

end FiniteAutomata
