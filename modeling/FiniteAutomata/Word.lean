namespace FiniteAutomata

/-!
# Words

Automata read words, and patterns describe sets of words. A text is read as the
word of its characters.
-/

/-- A finite sequence of characters. -/
abbrev Word := List Char

namespace Word

/-- All words of the given length over an alphabet. Each is a word of the previous
length followed by one more character; earlier characters of the alphabet come
first, and a character that is listed twice is used twice. -/
def ofLength (alphabet : List Char) : Nat -> List Word
  | 0 => [[]]
  | length + 1 =>
    (ofLength alphabet length).flatMap fun word =>
      alphabet.map fun character => word ++ [character]

/-- All words over an alphabet up to the given length, shorter words first. -/
def upToLength (alphabet : List Char) (length : Nat) : List Word :=
  (List.range (length + 1)).flatMap (ofLength alphabet)

/-- Shorter words come first, and words of the same length are ordered like
dictionary entries by code point. -/
def Shortlex (first second : Word) : Prop :=
  first.length < second.length ∨ (first.length = second.length ∧ first < second)

/-- The first word comes before the second, or they are the same. -/
def ShortlexLe (first second : Word) : Prop := first = second ∨ Shortlex first second

theorem shortlex_irrefl (word : Word) : ¬ Shortlex word word := by
  rintro (shorter | ⟨_, earlier⟩)
  · exact Nat.lt_irrefl _ shorter
  · exact List.lt_irrefl word earlier

theorem Shortlex.trans {first second third : Word} (before : Shortlex first second)
    (after : Shortlex second third) : Shortlex first third := by
  rcases before with shorter | ⟨sameLength, earlier⟩
  · rcases after with shorterToo | ⟨sameLength, _⟩
    · exact Or.inl (Nat.lt_trans shorter shorterToo)
    · exact Or.inl (sameLength ▸ shorter)
  · rcases after with shorter | ⟨sameLengthToo, earlierToo⟩
    · exact Or.inl (sameLength ▸ shorter)
    · exact Or.inr ⟨sameLength.trans sameLengthToo, List.lt_trans earlier earlierToo⟩

theorem lt_append {first second left right : Word} (sameLength : first.length = second.length)
    (earlier : first < second) : first ++ left < second ++ right := by
  induction first generalizing second with
  | nil =>
    rw [List.eq_nil_of_length_eq_zero sameLength.symm] at earlier
    exact absurd earlier (List.lt_irrefl [])
  | cons character rest inductionHypothesis =>
    cases second with
    | nil => cases sameLength
    | cons other later =>
      rcases List.cons_lt_cons_iff.mp earlier with below | ⟨same, laterEarlier⟩
      · exact List.cons_lt_cons_iff.mpr (Or.inl below)
      · exact List.cons_lt_cons_iff.mpr
          (Or.inr ⟨same, inductionHypothesis (Nat.succ.inj sameLength) laterEarlier⟩)

/-- Of two words in order, one more character each leaves the order as it is. -/
theorem Shortlex.append_singleton {first second : Word} (before : Shortlex first second)
    (left right : Char) : Shortlex (first ++ [left]) (second ++ [right]) := by
  unfold Shortlex
  rw [List.length_append, List.length_append]
  rcases before with shorter | ⟨sameLength, earlier⟩
  · exact Or.inl (Nat.succ_lt_succ shorter)
  · exact Or.inr ⟨congrArg Nat.succ sameLength, lt_append sameLength earlier⟩

/-- The same word is continued by an earlier or a later character. -/
theorem shortlex_of_lt (word : Word) {left right : Char} (below : left < right) :
    Shortlex (word ++ [left]) (word ++ [right]) := by
  refine Or.inr ⟨by rw [List.length_append, List.length_append]; rfl, ?_⟩
  induction word with
  | nil => exact List.cons_lt_cons_iff.mpr (Or.inl below)
  | cons character rest inductionHypothesis =>
    exact List.cons_lt_cons_iff.mpr (Or.inr ⟨rfl, inductionHypothesis⟩)

theorem nil_shortlex (word : Word) (last : Char) : Shortlex [] (word ++ [last]) :=
  Or.inl (by rw [List.length_append]; exact Nat.succ_pos _)

theorem ShortlexLe.trans {first second third : Word} (before : ShortlexLe first second)
    (after : ShortlexLe second third) : ShortlexLe first third := by
  rcases before with same | earlier
  · exact same ▸ after
  · rcases after with same | earlierToo
    · exact Or.inr (same ▸ earlier)
    · exact Or.inr (earlier.trans earlierToo)

theorem ShortlexLe.append_singleton {first second : Word} (before : ShortlexLe first second)
    (last : Char) : ShortlexLe (first ++ [last]) (second ++ [last]) := by
  rcases before with same | earlier
  · exact Or.inl (congrArg (· ++ [last]) same)
  · exact Or.inr (earlier.append_singleton last last)

theorem ShortlexLe.antisymm {first second : Word} (before : ShortlexLe first second)
    (after : ShortlexLe second first) : first = second := by
  rcases before with same | earlier
  · exact same
  · rcases after with same | earlierToo
    · exact same.symm
    · exact absurd (earlier.trans earlierToo) (shortlex_irrefl first)

end Word

end FiniteAutomata
