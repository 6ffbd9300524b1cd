import FiniteAutomata.Proofs.Pattern.Balance
import FiniteAutomata.Proofs.Pattern.Reading

namespace FiniteAutomata
namespace Pattern

/-!
# What is known after a beginning of a text

The state of a reader describes the text that has been read.  It is cut at the brackets
that are still open, and each of its pieces consists of a sequence for every ended branch
and a repetition for every item of the branch that is being read.

This invariant says when the next character is refused.  A closing bracket needs a
bracket that is still open, and a star needs an item.  Every other character is taken, and
the invariant holds again with that character behind the text.
-/

/-! ## Items and branches -/

/-- The word consists of a repetition for every item.  The latest item is listed first. -/
inductive SpellsItems : Word -> List Pattern -> Prop where
  | nothing : SpellsItems [] []
  | next {left right : Word} {earlier : List Pattern} {item : Pattern} :
      SpellsItems left earlier -> Derives .repetition right item ->
        SpellsItems (left ++ right) (item :: earlier)

/-- The word consists of a sequence for every branch, each followed by a bar.  The latest
branch is listed first. -/
inductive SpellsBranches : Word -> List Pattern -> Prop where
  | nothing : SpellsBranches [] []
  | next {left right : Word} {earlier : List Pattern} {branch : Pattern} :
      SpellsBranches left earlier -> Derives .sequence right branch ->
        SpellsBranches (left ++ (right ++ ['|'])) (branch :: earlier)

/-- The word is what has been read of the group. -/
inductive Group.Spells (group : Group) : Word -> Prop where
  | intro {ended current : Word} : SpellsBranches ended group.branches ->
      SpellsItems current group.items -> group.Spells (ended ++ current)

theorem SpellsItems.items {left right : Word} {earlier : List Pattern} {item : Pattern}
    (spells : SpellsItems left earlier) (latest : Derives .repetition right item) :
    Derives .items (left ++ right) (sequence (item :: earlier).reverse) := by
  induction spells generalizing right item with
  | nothing => exact .item latest
  | next _ previous inductionHypothesis =>
    rw [sequence_reverse_cons (List.cons_ne_nil _ _)]
    exact .next (inductionHypothesis previous) latest

theorem SpellsItems.sequence {word : Word} {items : List Pattern}
    (spells : SpellsItems word items) : Derives .sequence word (sequence items.reverse) := by
  cases spells with
  | nothing => exact .nothing
  | next earlier latest => exact .row (earlier.items latest)

theorem SpellsBranches.choice {left right : Word} {earlier : List Pattern} {branch : Pattern}
    (spells : SpellsBranches left earlier) (latest : Derives .sequence right branch) :
    Derives .choice (left ++ right) (alternatives (branch :: earlier).reverse) := by
  induction spells generalizing right branch with
  | nothing => exact .branch latest
  | next _ previous inductionHypothesis =>
    rw [alternatives_reverse_cons (List.cons_ne_nil _ _), ← List.append_assoc,
      List.append_assoc]
    exact .bar (inductionHypothesis previous) latest

namespace Group

theorem spells_nil : Spells {} [] := @Spells.intro {} [] [] .nothing .nothing

theorem Spells.choice {group : Group} {word : Word} (spells : group.Spells word) :
    Derives .choice word group.pattern := by
  cases spells with
  | intro ended current => exact ended.choice current.sequence

theorem Spells.push {group : Group} {word piece : Word} {item : Pattern}
    (spells : group.Spells word) (derives : Derives .repetition piece item) :
    (group.push item).Spells (word ++ piece) := by
  cases spells with
  | intro ended current =>
    rw [List.append_assoc]
    exact .intro ended (.next current derives)

theorem Spells.endBranch {group : Group} {word : Word} (spells : group.Spells word) :
    group.endBranch.Spells (word ++ ['|']) := by
  cases spells with
  | intro ended current =>
    rw [List.append_assoc, ← List.append_nil (_ ++ (_ ++ _))]
    exact .intro (.next ended current.sequence) .nothing

/-- A star becomes part of the repetition that the latest item was read from. -/
theorem Spells.starLatest {branches earlier : List Pattern} {latest : Pattern} {word : Word}
    (spells : Spells ⟨branches, latest :: earlier⟩ word) :
    Spells ⟨branches, star latest :: earlier⟩ (word ++ ['*']) := by
  cases spells with
  | intro ended current =>
    cases current with
    | next before repetition =>
      rw [List.append_assoc, List.append_assoc]
      exact .intro ended (.next before (.star repetition))

theorem Spells.balanced {group : Group} {word : Word} (spells : group.Spells word) :
    Balanced word :=
  spells.choice.balanced

/-! ## Where a branch begins -/

theorem not_atBranchStart {last : Char} (notBracket : last ≠ '(') (notBar : last ≠ '|')
    (earlier : Word) : ¬ AtBranchStart (earlier ++ [last]) := by
  rintro (nothing | ⟨other, bracket | bar⟩)
  · exact List.concat_ne_nil _ _ nothing
  · exact notBracket (List.append_singleton_inj.mp bracket).2
  · exact notBar (List.append_singleton_inj.mp bar).2

/-- Behind an item no branch begins. -/
theorem not_atBranchStart_of_repetition {word : Word} {item : Pattern}
    (derives : Derives .repetition word item) (earlier : Word) :
    ¬ AtBranchStart (earlier ++ word) := by
  cases derives with
  | once atom =>
    cases atom with
    | brackets inner =>
      rw [← List.cons_append, ← List.append_assoc]
      exact not_atBranchStart (by decide) (by decide) _
    | literal isLiteral =>
      exact not_atBranchStart (ne_of_isReserved isLiteral rfl) (ne_of_isReserved isLiteral rfl) _
  | star inner =>
    rw [← List.append_assoc]
    exact not_atBranchStart (by decide) (by decide) _

/-- Where a group begins, a branch begins, and one begins again whenever the group has no
items for its current branch. -/
theorem Spells.atBranchStart_iff {group : Group} {word before : Word}
    (spells : group.Spells word) (start : AtBranchStart before) :
    AtBranchStart (before ++ word) ↔ group.items = [] := by
  rcases group with ⟨branches, items⟩
  cases spells with
  | intro ended current =>
    cases current with
    | next earlier latest =>
      rw [← List.append_assoc, ← List.append_assoc]
      exact iff_of_false (not_atBranchStart_of_repetition latest _) (List.cons_ne_nil _ _)
    | nothing =>
      refine iff_of_true ?_ rfl
      cases ended with
      | nothing =>
        rw [List.append_nil, List.append_nil]
        exact start
      | next earlier latest =>
        rw [List.append_nil, ← List.append_assoc, ← List.append_assoc]
        exact Or.inr ⟨_, Or.inr rfl⟩

end Group

/-! ## The invariant -/

/-- The word is what has been read: every open bracket stands between what was read by the
reader outside and what was read of the group inside. -/
inductive Reads : Word -> Reader -> Prop where
  | outside {word : Word} {group : Group} :
      group.Spells word -> Reads word ⟨offset word, group, []⟩
  | inside {before word : Word} {outer : Reader} {group : Group} :
      Reads before outer -> group.Spells word ->
        Reads (before ++ '(' :: word)
          ⟨offset (before ++ '(' :: word), group,
            (outer.position, outer.group) :: outer.enclosing⟩

namespace Reads

theorem begin : Reads [] {} := .outside Group.spells_nil

theorem position_eq {word : Word} {reader : Reader} (reads : Reads word reader) :
    reader.position = offset word := by
  cases reads <;> rfl

/-- A piece of text that only adds to the group that is being read. -/
theorem extend {word piece : Word} {reader : Reader} {group : Group}
    (reads : Reads word reader)
    (grows : forall inner, reader.group.Spells inner -> group.Spells (inner ++ piece)) :
    Reads (word ++ piece) ⟨offset (word ++ piece), group, reader.enclosing⟩ := by
  cases reads with
  | outside spells => exact .outside (grows _ spells)
  | inside outer spells =>
    rw [List.append_assoc, List.cons_append]
    exact .inside outer (grows _ spells)

theorem hasUnclosed_iff {word : Word} {reader : Reader} (reads : Reads word reader) :
    HasUnclosed word ↔ reader.enclosing ≠ [] := by
  cases reads with
  | outside spells => exact iff_of_false spells.balanced.not_hasUnclosed (fun some => some rfl)
  | inside outer spells =>
    exact iff_of_true ⟨_, _, rfl, spells.balanced.neverClosed⟩ (List.cons_ne_nil _ _)

theorem atBranchStart_iff {word : Word} {reader : Reader} (reads : Reads word reader) :
    AtBranchStart word ↔ reader.group.items = [] := by
  cases reads with
  | outside spells => exact spells.atBranchStart_iff (Or.inl rfl)
  | inside outer spells =>
    rw [List.append_cons]
    exact spells.atBranchStart_iff (Or.inr ⟨_, Or.inl rfl⟩)

/-! ## One more character -/

theorem feed_of_misplaced {word : Word} {reader : Reader} {character : Char}
    (reads : Reads word reader) (misplaced : Misplaced word character) :
    reader.feed character = .error (.unexpected character (offset word)) := by
  rw [← reads.position_eq]
  rcases reader with ⟨position, ⟨branches, items⟩, enclosing⟩
  cases misplaced with
  | close noneOpen =>
    have outside : enclosing = [] := Decidable.byContradiction fun someOpen =>
      noneOpen (reads.hasUnclosed_iff.mpr someOpen)
    rw [outside]
    rfl
  | star start =>
    have noItem : items = [] := reads.atBranchStart_iff.mp start
    rw [noItem]
    rfl

theorem closing {word : Word} {position : Nat} {group surrounding : Group} {opened : Nat}
    {enclosing : List (Nat × Group)}
    (reads : Reads word ⟨position, group, (opened, surrounding) :: enclosing⟩) :
    Reads (word ++ [')'])
      ⟨offset (word ++ [')']), surrounding.push group.pattern, enclosing⟩ := by
  cases reads with
  | inside outer spells =>
    rw [List.append_assoc, List.cons_append]
    exact outer.extend fun inner around => around.push (.once (.brackets spells.choice))

theorem feed_of_not_misplaced {word : Word} {reader : Reader} {character : Char}
    (reads : Reads word reader) (fits : ¬ Misplaced word character) :
    exists next, reader.feed character = .ok next ∧ Reads (word ++ [character]) next := by
  have advanced : reader.position + character.utf8Size = offset (word ++ [character]) := by
    rw [reads.position_eq, offset_append_singleton]
  rcases reader with ⟨position, group, enclosing⟩
  by_cases reserved : isReserved character = true
  · rcases eq_of_isReserved reserved with rfl | rfl | rfl | rfl
    · refine ⟨_, rfl, ?_⟩
      rw [advanced]
      exact .inside reads Group.spells_nil
    · cases enclosing with
      | nil =>
        have noneOpen : ¬ HasUnclosed word := fun someOpen =>
          reads.hasUnclosed_iff.mp someOpen rfl
        exact absurd (.close noneOpen) fits
      | cons innermost outer =>
        refine ⟨_, rfl, ?_⟩
        rw [advanced]
        exact reads.closing
    · refine ⟨_, rfl, ?_⟩
      rw [advanced]
      exact reads.extend fun _ spells => spells.endBranch
    · rcases group with ⟨branches, _ | ⟨latest, earlier⟩⟩
      · exact absurd (.star (reads.atBranchStart_iff.mpr rfl)) fits
      · refine ⟨_, rfl, ?_⟩
        rw [advanced]
        exact reads.extend fun _ spells => spells.starLatest
  · have isLiteral : isReserved character = false := Bool.eq_false_iff.mpr reserved
    refine ⟨_, feed_literal _ isLiteral, ?_⟩
    rw [advanced]
    exact reads.extend fun _ spells => spells.push (.once (.literal isLiteral))

end Reads

/-! ## The whole text -/

theorem wellPlaced_nil : WellPlaced [] := by
  intro before character after split
  exact absurd split.symm (List.append_ne_nil_of_right_ne_nil _ (List.cons_ne_nil _ _))

theorem WellPlaced.append_singleton {word : Word} {character : Char} (wellPlaced : WellPlaced word)
    (fits : ¬ Misplaced word character) : WellPlaced (word ++ [character]) := by
  intro before other after split
  rcases List.eq_nil_or_concat after with nothing | ⟨earlier, last, afterSplit⟩
  · rw [nothing] at split
    rcases List.append_singleton_inj.mp split with ⟨rfl, rfl⟩
    exact fits
  · rw [afterSplit, List.concat_eq_append, ← List.cons_append, ← List.append_assoc] at split
    exact wellPlaced before other earlier (List.append_singleton_inj.mp split).1

/-- The rest of a text is read to its end, or up to the first character that is misplaced,
which is reported.  The invariant speaks of the text before the rest, so this grows with
every character that is taken. -/
theorem foldlM_feed_cases {before : Word} {reader : Reader} (reads : Reads before reader)
    (wellPlaced : WellPlaced before) (word : Word) :
    (exists final, word.foldlM Reader.feed reader = .ok final ∧ Reads (before ++ word) final ∧
      WellPlaced (before ++ word)) ∨
    (exists middle character after, word = middle ++ character :: after ∧
      WellPlaced (before ++ middle) ∧ Misplaced (before ++ middle) character ∧
      word.foldlM Reader.feed reader =
        .error (.unexpected character (offset (before ++ middle)))) := by
  induction word generalizing before reader with
  | nil =>
    rw [List.append_nil]
    exact Or.inl ⟨reader, rfl, reads, wellPlaced⟩
  | cons character rest inductionHypothesis =>
    by_cases misplaced : Misplaced before character
    · refine Or.inr ⟨[], character, rest, rfl, ?_⟩
      rw [List.append_nil, List.foldlM_cons, reads.feed_of_misplaced misplaced]
      exact ⟨wellPlaced, misplaced, rfl⟩
    · rcases reads.feed_of_not_misplaced misplaced with ⟨next, fed, readsNext⟩
      rw [List.foldlM_cons, fed, List.append_cons]
      rcases inductionHypothesis readsNext (wellPlaced.append_singleton misplaced) with
        finished | ⟨middle, other, after, split, placed, wrong, failed⟩
      · exact Or.inl finished
      · refine Or.inr ⟨character :: middle, other, after, ?_, ?_⟩
        · rw [split, List.cons_append]
        · rw [List.append_cons]
          exact ⟨placed, wrong, failed⟩

/-- What the result of reading a text says about the text. -/
inductive Verdict (word : Word) : Except SyntaxError Pattern -> Prop where
  | accepted {pattern : Pattern} : WellPlaced word -> ¬ HasUnclosed word ->
      Derives .choice word pattern -> Verdict word (.ok pattern)
  /-- The bracket that is reported is the last one that is not closed. -/
  | unclosed {before after : Word} : WellPlaced word -> word = before ++ '(' :: after ->
      NeverClosed after -> ¬ HasUnclosed after ->
        Verdict word (.error (.unclosed (offset before)))
  /-- The character that is reported is the first one that is misplaced. -/
  | unexpected {before after : Word} {character : Char} :
      word = before ++ character :: after -> WellPlaced before -> Misplaced before character ->
        Verdict word (.error (.unexpected character (offset before)))

theorem Reads.verdict_finish {word : Word} {reader : Reader} (reads : Reads word reader)
    (wellPlaced : WellPlaced word) : Verdict word reader.finish := by
  cases reads with
  | outside spells =>
    exact .accepted wellPlaced spells.balanced.not_hasUnclosed spells.choice
  | @inside before inner outer group readsOutside spells =>
    change Verdict _ (.error (.unclosed outer.position))
    rw [readsOutside.position_eq]
    exact .unclosed wellPlaced rfl spells.balanced.neverClosed spells.balanced.not_hasUnclosed

theorem verdict_read (word : Word) : Verdict word (read word) := by
  unfold read Reader.run
  rcases foldlM_feed_cases .begin wellPlaced_nil word with
    ⟨final, finished, reads, placed⟩ | ⟨middle, character, after, split, placed, wrong, failed⟩
  · rw [finished]
    exact reads.verdict_finish placed
  · rw [failed]
    exact .unexpected split placed wrong

end Pattern
end FiniteAutomata
