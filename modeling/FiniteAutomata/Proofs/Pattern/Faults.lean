import FiniteAutomata.Matcher.Basic
import FiniteAutomata.Proofs.Occurrences
import FiniteAutomata.Proofs.Pattern.Parsing
import FiniteAutomata.Proofs.Pattern.Progress

namespace FiniteAutomata
namespace Pattern

/-!
# Which fault is reported

A text is refused for the first character that is misplaced, or else for the last bracket
that is not closed.  Either condition singles out one place of the text, so the reported
fault is the only one that the text allows, and a text without faults is read.
-/

/-! ## The place of a fault -/

/-- There is only one first misplaced character. -/
theorem first_misplaced_unique {before after otherBefore otherAfter : Word}
    {character other : Char}
    (same : before ++ character :: after = otherBefore ++ other :: otherAfter)
    (placed : WellPlaced before) (misplaced : Misplaced before character)
    (otherPlaced : WellPlaced otherBefore) (otherMisplaced : Misplaced otherBefore other) :
    before = otherBefore ∧ character = other :=
  cut_unique same (fun _ split _ => otherPlaced _ _ _ split misplaced)
    (fun _ split _ => placed _ _ _ split otherMisplaced)

/-- There is only one last bracket that is not closed. -/
theorem last_unclosed_unique {before after otherBefore otherAfter : Word}
    (same : before ++ '(' :: after = otherBefore ++ '(' :: otherAfter)
    (unclosed : NeverClosed after) (last : ¬ HasUnclosed after)
    (otherUnclosed : NeverClosed otherAfter) (otherLast : ¬ HasUnclosed otherAfter) :
    before = otherBefore :=
  (cut_unique same (fun _ _ split => last ⟨_, _, split, otherUnclosed⟩)
    (fun _ _ split => otherLast ⟨_, _, split, unclosed⟩)).1

/-! ## The three results -/

theorem Verdict.eq_unexpected {word before after : Word} {character : Char}
    {result : Except SyntaxError Pattern} (verdict : Verdict word result)
    (split : word = before ++ character :: after) (placed : WellPlaced before)
    (misplaced : Misplaced before character) :
    result = .error (.unexpected character (offset before)) := by
  cases verdict with
  | accepted wholePlaced _ _ => exact absurd misplaced (wholePlaced _ _ _ split)
  | unclosed wholePlaced _ _ _ => exact absurd misplaced (wholePlaced _ _ _ split)
  | unexpected otherSplit otherPlaced otherMisplaced =>
    rcases first_misplaced_unique (otherSplit.symm.trans split) otherPlaced otherMisplaced
      placed misplaced with ⟨rfl, rfl⟩
    rfl

theorem Verdict.eq_unclosed {word before after : Word} {result : Except SyntaxError Pattern}
    (verdict : Verdict word result) (placed : WellPlaced word)
    (split : word = before ++ '(' :: after) (unclosed : NeverClosed after)
    (last : ¬ HasUnclosed after) : result = .error (.unclosed (offset before)) := by
  cases verdict with
  | accepted _ closed _ => exact absurd ⟨before, after, split, unclosed⟩ closed
  | unclosed _ otherSplit otherUnclosed otherLast =>
    rw [last_unclosed_unique (otherSplit.symm.trans split) otherUnclosed otherLast unclosed last]
  | unexpected otherSplit _ misplaced => exact absurd misplaced (placed _ _ _ otherSplit)

theorem Verdict.exists_ok {word : Word} {result : Except SyntaxError Pattern}
    (verdict : Verdict word result) (placed : WellPlaced word) (closed : ¬ HasUnclosed word) :
    exists pattern, result = .ok pattern := by
  cases verdict with
  | accepted _ _ _ => exact ⟨_, rfl⟩
  | unclosed _ split unclosed _ => exact absurd ⟨_, _, split, unclosed⟩ closed
  | unexpected split _ misplaced => exact absurd misplaced (placed _ _ _ split)

theorem verdict_parse (text : String) : Verdict text.toList (parse text) := by
  rw [parse_eq_read]
  exact verdict_read text.toList

theorem parse_eq_unexpected_iff {text : String} {character : Char} {position : Nat} :
    parse text = .error (.unexpected character position) ↔
      exists before after, text.toList = before ++ character :: after ∧ WellPlaced before ∧
        Misplaced before character ∧ position = offset before := by
  have verdict := verdict_parse text
  constructor
  · intro failed
    rw [failed] at verdict
    cases verdict with
    | unexpected split placed misplaced => exact ⟨_, _, split, placed, misplaced, rfl⟩
  · rintro ⟨before, after, split, placed, misplaced, rfl⟩
    exact verdict.eq_unexpected split placed misplaced

theorem parse_eq_unclosed_iff {text : String} {position : Nat} :
    parse text = .error (.unclosed position) ↔
      WellPlaced text.toList ∧ exists before after, text.toList = before ++ '(' :: after ∧
        NeverClosed after ∧ ¬ HasUnclosed after ∧ position = offset before := by
  have verdict := verdict_parse text
  constructor
  · intro failed
    rw [failed] at verdict
    cases verdict with
    | unclosed placed split unclosed last => exact ⟨placed, _, _, split, unclosed, last, rfl⟩
  · rintro ⟨placed, before, after, split, unclosed, last, rfl⟩
    exact verdict.eq_unclosed placed split unclosed last

theorem exists_parse_eq_ok_iff {text : String} :
    (exists pattern, parse text = .ok pattern) ↔
      WellPlaced text.toList ∧ ¬ HasUnclosed text.toList := by
  have verdict := verdict_parse text
  constructor
  · rintro ⟨pattern, isResult⟩
    rw [isResult] at verdict
    cases verdict with
    | accepted placed closed _ => exact ⟨placed, closed⟩
  · rintro ⟨placed, closed⟩
    exact verdict.exists_ok placed closed

theorem parse_matcher_eq_error_iff {text : String} {error : SyntaxError} :
    Matcher.parse text = .error error ↔ parse text = .error error := by
  unfold Matcher.parse
  cases parse text with
  | error fault => exact ⟨fun same => congrArg Except.error (Except.error.inj same),
      fun same => congrArg Except.error (Except.error.inj same)⟩
  | ok pattern => exact iff_of_false nofun nofun

/-- A text is refused exactly for its first misplaced character, or if there is none for its
last bracket that is not closed, and it is parsed as a pattern if there is neither.  A matcher
is refused for the same reason, and so is a pattern that is read as any value can be. -/
theorem reading_reports_fault (text : String) :
    (forall character position, parse text = .error (.unexpected character position) ↔
      exists before after, text.toList = before ++ character :: after ∧ WellPlaced before ∧
        Misplaced before character ∧ position = offset before) ∧
    (forall position, parse text = .error (.unclosed position) ↔
      WellPlaced text.toList ∧ exists before after, text.toList = before ++ '(' :: after ∧
        NeverClosed after ∧ ¬ HasUnclosed after ∧ position = offset before) ∧
    ((exists pattern, parse text = .ok pattern) ↔
      WellPlaced text.toList ∧ ¬ HasUnclosed text.toList) ∧
    (forall error, Matcher.parse text = .error error ↔ parse text = .error error) ∧
    forall error, (FromText.fromText text : Except SyntaxError Pattern) = .error error ↔
      parse text = .error error :=
  ⟨fun _ _ => parse_eq_unexpected_iff, fun _ => parse_eq_unclosed_iff, exists_parse_eq_ok_iff,
    fun _ => parse_matcher_eq_error_iff, fun _ => Iff.rfl⟩

/-- The star comes first among three faults, and its position counts bytes. -/
example : parse "(é|*))(" = .error (.unexpected '*' 4) := by
  rw [parse_eq_read]
  rfl

end Pattern
end FiniteAutomata
