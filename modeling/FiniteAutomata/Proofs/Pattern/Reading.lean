import FiniteAutomata.Pattern.Literals
import FiniteAutomata.Pattern.Reader

namespace FiniteAutomata
namespace Pattern

/-!
# What reading a piece of text does

A piece of text whose brackets are balanced changes only the group in which it is
read.  `Consumes word before after` says that it turns the group `before` into the
group `after`, wherever in a text it stands and whatever surrounds it.  There is
one rule for every kind of piece, and pieces are put together by `Consumes.append`.
-/

/-- Reading the word turns the group `before` into the group `after`. -/
def Consumes (word : Word) (before after : Group) : Prop :=
  forall (position : Nat) (enclosing : List (Nat × Group)), exists next : Nat,
    word.foldlM Reader.feed ⟨position, before, enclosing⟩ = .ok ⟨next, after, enclosing⟩

/-! ## Single characters -/

theorem feed_literal (reader : Reader) {character : Char}
    (isLiteral : isReserved character = false) :
    reader.feed character = .ok ⟨reader.position + character.utf8Size,
      reader.group.push (literal character), reader.enclosing⟩ := by
  unfold Reader.feed
  split
  · exact absurd isLiteral (by decide)
  · exact absurd isLiteral (by decide)
  · exact absurd isLiteral (by decide)
  · exact absurd isLiteral (by decide)
  · rfl

theorem consumes_literal (group : Group) {character : Char}
    (isLiteral : isReserved character = false) :
    Consumes [character] group (group.push (literal character)) := by
  intro position enclosing
  rw [List.foldlM_cons, feed_literal _ isLiteral]
  exact ⟨_, rfl⟩

theorem consumes_bar (group : Group) : Consumes ['|'] group group.endBranch :=
  fun _ _ => ⟨_, rfl⟩

/-- A star stands after an item, which it repeats. -/
theorem consumes_star (group : Group) (item : Pattern) :
    Consumes ['*'] (group.push item) (group.push (star item)) :=
  fun _ _ => ⟨_, rfl⟩

/-! ## Pieces of text -/

theorem consumes_nil (group : Group) : Consumes [] group group :=
  fun position _ => ⟨position, rfl⟩

theorem Consumes.append {left right : Word} {before between after : Group}
    (first : Consumes left before between) (second : Consumes right between after) :
    Consumes (left ++ right) before after := by
  intro position enclosing
  rcases first position enclosing with ⟨middle, leftRead⟩
  rcases second middle enclosing with ⟨next, rightRead⟩
  refine ⟨next, ?_⟩
  rw [List.foldlM_append, leftRead]
  exact rightRead

/-- What stands between brackets is read as a text of its own, and becomes an item of
the group around the brackets. -/
theorem Consumes.brackets {word : Word} {inner : Group} (consumes : Consumes word {} inner)
    (group : Group) : Consumes ('(' :: (word ++ [')'])) group (group.push inner.pattern) := by
  intro position enclosing
  rcases consumes (position + '('.utf8Size) ((position, group) :: enclosing) with
    ⟨next, innerRead⟩
  refine ⟨next + ')'.utf8Size, ?_⟩
  change (word ++ [')']).foldlM Reader.feed
    ⟨position + '('.utf8Size, {}, (position, group) :: enclosing⟩ = _
  rw [List.foldlM_append, innerRead]
  rfl

/-- A text that is read as a whole. -/
theorem Consumes.read_eq {word : Word} {group : Group} (consumes : Consumes word {} group) :
    read word = .ok group.pattern := by
  rcases consumes 0 [] with ⟨next, wordRead⟩
  unfold read Reader.run
  rw [wordRead]
  rfl

end Pattern
end FiniteAutomata
