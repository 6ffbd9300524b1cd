import FiniteAutomata.Proofs.Pattern.Balance

namespace FiniteAutomata
namespace Pattern

/-!
# A text has at most one derivation

Two derivations of one text could only differ in where they cut it.  Brackets rule that
out.  A phrase is balanced, and a balanced beginning of an atom is the whole atom, so that
nothing but stars can follow a balanced beginning of a repetition.  The cuts between items
and the cuts at bars are therefore determined by the text.
-/

/-- Two cuts of a word agree if both left sides are balanced and neither right side begins
with something balanced that the other one lacks. -/
theorem Balanced.append_inj {left right otherLeft otherRight : Word} (first : Balanced left)
    (second : Balanced otherLeft) (same : left ++ right = otherLeft ++ otherRight)
    (notLonger : forall middle, Balanced middle -> right = middle ++ otherRight -> middle = [])
    (notShorter : forall middle, Balanced middle -> otherRight = middle ++ right ->
      middle = []) : left = otherLeft ∧ right = otherRight := by
  rcases List.append_eq_append_iff.mp same with ⟨middle, split, rest⟩ | ⟨middle, split, rest⟩
  · have nothing := notLonger middle (first.of_append (split ▸ second)) rest
    rw [nothing, List.append_nil] at split
    rw [nothing, List.nil_append] at rest
    exact ⟨split.symm, rest⟩
  · have nothing := notShorter middle (second.of_append (split ▸ first)) rest
    rw [nothing, List.append_nil] at split
    rw [nothing, List.nil_append] at rest
    exact ⟨split, rest.symm⟩

namespace Derivation

theorem balanced {phrase : Phrase} (derivation : Derivation phrase) :
    Balanced derivation.text :=
  derivation.derives.balanced

/-! ## Beginnings of phrases -/

/-- A balanced beginning of an atom is the whole atom. -/
theorem atom_eq_nil_of_balanced (atom : Derivation .atom) {left right : Word}
    (split : atom.text = left ++ right) (nonempty : left ≠ []) (balanced : Balanced left) :
    right = [] := by
  cases atom with
  | literal character isLiteral =>
    rcases List.append_eq_singleton_iff.mp split.symm with ⟨nothing, _⟩ | ⟨_, nothing⟩
    · exact absurd nothing nonempty
    · exact nothing
  | brackets inner =>
    rcases List.cons_eq_append_iff.mp split with ⟨nothing, _⟩ | ⟨opened, leftSplit, rest⟩
    · exact absurd nothing nonempty
    · rcases List.eq_nil_or_concat right with nothing | ⟨earlier, last, rightSplit⟩
      · exact nothing
      · -- The closing bracket is missing on the left, where everything else is balanced.
        rw [rightSplit, List.concat_eq_append, ← List.append_assoc] at rest
        have inside := (List.append_singleton_inj.mp rest).1
        have counts := inner.balanced.neverClosed opened ⟨earlier, inside.symm⟩
        have equal := balanced.equal
        rw [leftSplit, (count_opening_cons opened).1, (count_opening_cons opened).2] at equal
        omega

/-- Only stars follow a balanced beginning of a repetition. -/
theorem eq_star_of_balanced {left right : Word} :
    (repetition : Derivation .repetition) -> repetition.text = left ++ right -> left ≠ [] ->
      Balanced left -> forall character, character ∈ right -> character = '*'
  | once atom, split, nonempty, balanced => by
    rw [atom.atom_eq_nil_of_balanced split nonempty balanced]
    intro character member
    exact absurd member List.not_mem_nil
  | star inner, split, nonempty, balanced => by
    rcases List.eq_nil_or_concat right with nothing | ⟨earlier, last, rightSplit⟩
    · rw [nothing]
      intro character member
      exact absurd member List.not_mem_nil
    · rw [List.concat_eq_append] at rightSplit
      rw [rightSplit, ← List.append_assoc] at split
      rcases List.append_singleton_inj.mp split with ⟨within, isStar⟩
      intro character member
      rw [rightSplit] at member
      rcases List.mem_append.mp member with isEarlier | isLast
      · exact eq_star_of_balanced inner within nonempty balanced character isEarlier
      · rw [List.mem_singleton.mp isLast, ← isStar]

theorem exists_first : (repetition : Derivation .repetition) ->
    exists first rest, repetition.text = first :: rest ∧ first ≠ '*' ∧ first ≠ '|'
  | once (brackets inner) => ⟨_, _, rfl, by decide, by decide⟩
  | once (literal character isLiteral) =>
    ⟨character, [], rfl, ne_of_isReserved isLiteral rfl, ne_of_isReserved isLiteral rfl⟩
  | star inner => by
    rcases inner.exists_first with ⟨first, rest, begins, notStar, notBar⟩
    refine ⟨first, rest ++ ['*'], ?_, notStar, notBar⟩
    rw [text, begins, List.cons_append]

theorem repetition_ne_nil (repetition : Derivation .repetition) : repetition.text ≠ [] := by
  rcases repetition.exists_first with ⟨first, rest, begins, _⟩
  rw [begins]
  exact List.cons_ne_nil first rest

theorem items_ne_nil (items : Derivation .items) : items.text ≠ [] := by
  cases items with
  | item only => exact only.repetition_ne_nil
  | next earlier latest =>
    exact List.append_ne_nil_of_right_ne_nil _ latest.repetition_ne_nil

theorem atom_ne_star (atom : Derivation .atom) (inner : Derivation .repetition) :
    atom.text ≠ inner.text ++ ['*'] := by
  intro split
  have nothing := atom.atom_eq_nil_of_balanced split inner.repetition_ne_nil inner.balanced
  exact List.cons_ne_nil _ _ nothing

/-- A repetition does not consist of something balanced and another repetition. -/
theorem not_balanced_before_repetition (whole latest : Derivation .repetition) {left : Word}
    (split : whole.text = left ++ latest.text) (balanced : Balanced left) : left = [] := by
  by_cases nonempty : left = []
  · exact nonempty
  · rcases latest.exists_first with ⟨first, rest, begins, notStar, _⟩
    have isStar := whole.eq_star_of_balanced split nonempty balanced first
      (begins ▸ List.mem_cons_self)
    exact absurd isStar notStar

/-! ## Bars -/

theorem not_balanced_before_bar_repetition (repetition : Derivation .repetition)
    {left right : Word} (split : repetition.text = left ++ '|' :: right) : ¬ Balanced left := by
  intro balanced
  by_cases nonempty : left = []
  · rcases repetition.exists_first with ⟨first, rest, begins, _, notBar⟩
    rw [nonempty, begins] at split
    exact notBar (List.cons.inj split).1
  · have isStar := repetition.eq_star_of_balanced split nonempty balanced '|' List.mem_cons_self
    exact absurd isStar (by decide)

theorem not_balanced_before_bar_items {left right : Word} :
    (items : Derivation .items) -> items.text = left ++ '|' :: right -> ¬ Balanced left
  | item only, split => only.not_balanced_before_bar_repetition split
  | next earlier latest, split => by
    intro balanced
    rcases List.append_eq_append_iff.mp split with
      ⟨middle, leftSplit, rest⟩ | ⟨middle, leftSplit, rest⟩
    · have middleBalanced : Balanced middle := earlier.balanced.of_append (leftSplit ▸ balanced)
      exact latest.not_balanced_before_bar_repetition rest middleBalanced
    · rcases List.cons_eq_append_iff.mp rest with ⟨nothing, atBar⟩ | ⟨later, atBar, _⟩
      · have begins : latest.text = [] ++ '|' :: right := atBar
        exact latest.not_balanced_before_bar_repetition begins balanced_nil
      · rw [atBar] at leftSplit
        exact earlier.not_balanced_before_bar_items leftSplit balanced

/-- In a sequence every bar stands between brackets. -/
theorem not_balanced_before_bar (sequence : Derivation .sequence) {left right : Word}
    (split : sequence.text = left ++ '|' :: right) : ¬ Balanced left := by
  cases sequence with
  | nothing => exact absurd split.symm (List.append_ne_nil_of_right_ne_nil _ (List.cons_ne_nil _ _))
  | row items => exact items.not_balanced_before_bar_items split

theorem no_balanced_before_bar (sequence : Derivation .sequence) {middle right : Word}
    (balanced : Balanced middle) (split : '|' :: sequence.text = middle ++ '|' :: right) :
    middle = [] := by
  rcases List.cons_eq_append_iff.mp split with ⟨nothing, _⟩ | ⟨inner, middleSplit, rest⟩
  · exact nothing
  · have bar : Balanced ['|'] := balanced_singleton (by decide) (by decide)
    rw [middleSplit] at balanced
    exact absurd (bar.of_append balanced) (sequence.not_balanced_before_bar rest)

/-! ## Uniqueness -/

theorem eq_of_text_eq {phrase : Phrase} (first second : Derivation phrase)
    (same : first.text = second.text) : first = second := by
  induction first with
  | branch only inductionHypothesis =>
    cases second with
    | branch other => rw [inductionHypothesis other same]
    | bar earlier latest => exact absurd earlier.balanced (only.not_balanced_before_bar same)
  | bar earlier latest earlierHypothesis latestHypothesis =>
    cases second with
    | branch other =>
      exact absurd earlier.balanced (other.not_balanced_before_bar same.symm)
    | bar otherEarlier otherLatest =>
      have cut := earlier.balanced.append_inj otherEarlier.balanced same
        (fun _ balanced split => latest.no_balanced_before_bar balanced split)
        (fun _ balanced split => otherLatest.no_balanced_before_bar balanced split)
      rw [earlierHypothesis otherEarlier cut.1,
        latestHypothesis otherLatest (List.cons.inj cut.2).2]
  | nothing =>
    cases second with
    | nothing => rfl
    | row items => exact absurd same.symm items.items_ne_nil
  | row items inductionHypothesis =>
    cases second with
    | nothing => exact absurd same items.items_ne_nil
    | row other => rw [inductionHypothesis other same]
  | item only inductionHypothesis =>
    cases second with
    | item other => rw [inductionHypothesis other same]
    | next earlier latest =>
      exact absurd (only.not_balanced_before_repetition latest same earlier.balanced)
        earlier.items_ne_nil
  | next earlier latest earlierHypothesis latestHypothesis =>
    cases second with
    | item other =>
      exact absurd (other.not_balanced_before_repetition latest same.symm earlier.balanced)
        earlier.items_ne_nil
    | next otherEarlier otherLatest =>
      have cut := earlier.balanced.append_inj otherEarlier.balanced same
        (fun _ balanced split => latest.not_balanced_before_repetition _ split balanced)
        (fun _ balanced split => otherLatest.not_balanced_before_repetition _ split balanced)
      rw [earlierHypothesis otherEarlier cut.1, latestHypothesis otherLatest cut.2]
  | once atom inductionHypothesis =>
    cases second with
    | once other => rw [inductionHypothesis other same]
    | star inner => exact absurd same (atom.atom_ne_star inner)
  | star inner inductionHypothesis =>
    cases second with
    | once other => exact absurd same.symm (other.atom_ne_star inner)
    | star other => rw [inductionHypothesis other (List.append_cancel_right same)]
  | brackets inner inductionHypothesis =>
    cases second with
    | brackets other =>
      rw [inductionHypothesis other (List.append_cancel_right (List.cons.inj same).2)]
    | literal character isLiteral =>
      exact absurd (List.cons.inj same).1.symm (ne_of_isReserved isLiteral rfl)
  | literal character isLiteral =>
    cases second with
    | brackets inner =>
      exact absurd (List.cons.inj same).1 (ne_of_isReserved isLiteral rfl)
    | literal other otherIsLiteral =>
      cases same
      rfl

end Derivation

end Pattern
end FiniteAutomata
