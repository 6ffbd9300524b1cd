import FiniteAutomata.Proofs.Pattern.RoundTrip

namespace FiniteAutomata
namespace Pattern

/-!
# Which brackets survive reading

A pattern is written with brackets wherever its nesting seems to require them, but an
empty part of a sequence is not written at all.  What is written of the sequence can
then be a single part, and brackets that would be needed around several parts, or
around a choice among them, are put around a part that could do without.  Reading drops
them, and when the result is written again they are missing.

The brackets that are lost in this way are found by comparing the pattern with its
normal form: the text of the normal form is the text of the pattern with some characters
deleted, and none are deleted exactly if all brackets are needed.
-/

/-! ## The condition -/

/-- The parts of a sequence that are written. -/
def parts : Pattern -> List Pattern
  | empty => []
  | concat first second => first.parts ++ second.parts
  | pattern => [pattern]

/-- Whether the pattern is a sequence of which only a single part is written. -/
def isLone (pattern : Pattern) : Bool := pattern.isConcat && pattern.parts.length == 1

/-- Whether the only part that is written of the sequence is a choice. -/
def isLoneChoice (pattern : Pattern) : Bool := pattern.isLone && pattern.parts.all isChoice

/-- Whether all brackets inside the pattern are needed.  A choice that stands alone in a
branch of another choice does not need its brackets, and neither does anything that
stands alone under a star. -/
def needsItsInnerBrackets : Pattern -> Bool
  | empty => true
  | literal _ => true
  | concat first second => first.needsItsInnerBrackets && second.needsItsInnerBrackets
  | choice first second =>
    (!first.isLoneChoice && first.needsItsInnerBrackets) &&
      (!second.isLoneChoice && second.needsItsInnerBrackets)
  | star inner => !inner.isLone && inner.needsItsInnerBrackets

/-- Whether all brackets in the written form of the pattern are needed. -/
def needsItsBrackets (pattern : Pattern) : Bool :=
  !pattern.isLoneChoice && pattern.needsItsInnerBrackets

/-! ## The kind of a row of items -/

/-- Whether the pattern is a literal or a repetition, so that a star can stand directly
after its written form. -/
def isUnit : Pattern -> Bool
  | literal _ => true
  | star _ => true
  | _ => false

theorem isConcat_sequence (first second : Pattern) (rest : List Pattern) :
    (sequence (first :: second :: rest)).isConcat = true := by
  induction rest generalizing first second with
  | nil => rfl
  | cons third later inductionHypothesis => exact inductionHypothesis (concat first second) third

theorem isChoice_alternatives (first second : Pattern) (rest : List Pattern) :
    (alternatives (first :: second :: rest)).isChoice = true := by
  induction rest generalizing first second with
  | nil => rfl
  | cons third later inductionHypothesis => exact inductionHypothesis (choice first second) third

theorem isChoice_of_isConcat {pattern : Pattern} (isSequence : pattern.isConcat = true) :
    pattern.isChoice = false := by
  cases pattern with
  | concat first second => rfl
  | empty | literal character | choice first second | star inner => cases isSequence

theorem isUnit_of_isConcat {pattern : Pattern} (isSequence : pattern.isConcat = true) :
    pattern.isUnit = false := by
  cases pattern with
  | concat first second => rfl
  | empty | literal character | choice first second | star inner => cases isSequence

theorem isUnit_of_isChoice {pattern : Pattern} (isChoice : pattern.isChoice = true) :
    pattern.isUnit = false := by
  cases pattern with
  | choice first second => rfl
  | empty | literal character | concat first second | star inner => cases isChoice

theorem isChoice_sequence (row : List Pattern) :
    (sequence row).isChoice = (row.length == 1 && row.all isChoice) := by
  rcases row with _ | ⟨first, _ | ⟨second, rest⟩⟩
  · rfl
  · exact (Bool.and_true first.isChoice).symm
  · exact isChoice_of_isConcat (isConcat_sequence first second rest)

theorem isUnit_sequence (row : List Pattern) :
    (sequence row).isUnit = (row.length == 1 && row.all isUnit) := by
  rcases row with _ | ⟨first, _ | ⟨second, rest⟩⟩
  · rfl
  · exact (Bool.and_true first.isUnit).symm
  · exact isUnit_of_isConcat (isConcat_sequence first second rest)

theorem isChoice_normalForm_choice (first second : Pattern) :
    (choice first second).normalForm.isChoice = true := by
  change (alternatives (first.branches ++ second.branches)).isChoice = true
  rcases List.exists_cons_of_ne_nil (branches_ne_nil first) with ⟨firstBranch, more, split⟩
  rcases List.exists_cons_of_ne_nil (branches_ne_nil second) with ⟨secondBranch, rest, splitSecond⟩
  rw [split, splitSecond]
  cases more with
  | nil => exact isChoice_alternatives _ _ _
  | cons next later => exact isChoice_alternatives _ _ _

/-- The items are what the written parts are read as. -/
theorem map_isChoice_items (pattern : Pattern) :
    pattern.items.map isChoice = pattern.parts.map isChoice := by
  induction pattern with
  | empty | literal character | star inner => rfl
  | concat first second firstHypothesis secondHypothesis =>
    rw [items, parts, List.map_append, List.map_append, firstHypothesis, secondHypothesis]
  | choice first second =>
    rw [items_choice, List.map_singleton, isChoice_normalForm_choice]
    rfl

/-- An item is never empty and never a sequence. -/
theorem isUnit_of_mem_items (pattern : Pattern) :
    forall item, item ∈ pattern.items -> item.isUnit = !item.isChoice := by
  intro item member
  induction pattern with
  | empty => cases member
  | literal character | star inner =>
    cases List.mem_singleton.mp member
    rfl
  | concat first second firstHypothesis secondHypothesis =>
    rcases List.mem_append.mp member with inFirst | inSecond
    · exact firstHypothesis inFirst
    · exact secondHypothesis inSecond
  | choice first second =>
    rw [items_choice, List.mem_singleton] at member
    have isChoice := isChoice_normalForm_choice first second
    rw [member, isUnit_of_isChoice isChoice, isChoice]
    rfl

theorem isLone_eq {pattern : Pattern} (isSequence : pattern.isConcat = true) :
    pattern.isLone = (pattern.items.length == 1) := by
  have sameLength := congrArg List.length (map_isChoice_items pattern)
  rw [List.length_map, List.length_map] at sameLength
  rw [isLone, isSequence, sameLength]
  rfl

theorem all_isChoice_parts (pattern : Pattern) :
    pattern.parts.all isChoice = pattern.items.all isChoice := by
  have asMaps := congrArg (fun kinds => kinds.all id) (map_isChoice_items pattern)
  simp only [List.all_map, Function.id_comp] at asMaps
  exact asMaps.symm

/-- A pattern that is not a choice itself is read as one if it is only written as one. -/
theorem isChoice_sequence_items {pattern : Pattern} (notChoice : pattern.isChoice = false) :
    (sequence pattern.items).isChoice = pattern.isLoneChoice := by
  cases pattern with
  | choice first second => cases notChoice
  | empty | literal character | star inner => rfl
  | concat first second =>
    rw [isChoice_sequence, isLoneChoice, isLone_eq rfl, all_isChoice_parts]

/-- What is read from a sequence can be a literal or a repetition, namely if a single
part of it is written and this is not a choice. -/
theorem isUnit_normalForm (pattern : Pattern) :
    pattern.normalForm.isUnit =
      (pattern.isUnit || (pattern.isLone && !pattern.isLoneChoice)) := by
  cases pattern with
  | empty | literal character | star inner => rfl
  | choice first second => exact isUnit_of_isChoice (isChoice_normalForm_choice first second)
  | concat first second =>
    change (sequence (concat first second).items).isUnit = (false || _)
    rw [isUnit_sequence, isLoneChoice, isLone_eq rfl, all_isChoice_parts]
    rcases row : (concat first second).items with _ | ⟨item, _ | ⟨other, rest⟩⟩
    · rfl
    · have unit := isUnit_of_mem_items (concat first second) item (row ▸ List.mem_cons_self)
      simp [unit]
    · rfl

/-! ## The text of rows and branches -/

theorem charsWithin_one_of_choice {pattern : Pattern} (isChoice : pattern.isChoice = true) :
    pattern.charsWithin 1 = '(' :: (pattern.chars ++ [')']) := by
  cases pattern with
  | choice first second => rfl
  | empty | literal character | concat first second | star inner => cases isChoice

/-- Rows are written one item after the other. -/
theorem charsWithin_one_sequence (row : List Pattern) :
    (sequence row).charsWithin 1 = row.flatMap fun item => item.charsWithin 1 := by
  rcases row with _ | ⟨first, rest⟩
  · rfl
  · exact sequence_eq_flatMap (charsWithin · 1) charsWithin_one_concat
      (List.cons_ne_nil first rest)

theorem charsWithin_one_sequence_append (left right : List Pattern) :
    (sequence (left ++ right)).charsWithin 1 =
      (sequence left).charsWithin 1 ++ (sequence right).charsWithin 1 := by
  rw [charsWithin_one_sequence, charsWithin_one_sequence, charsWithin_one_sequence,
    List.flatMap_append]

/-- Branches are written with bars between them, never with brackets. -/
theorem chars_alternatives (first : Pattern) (rest : List Pattern) :
    (alternatives (first :: rest)).chars =
      first.chars ++ rest.flatMap fun branch => '|' :: branch.chars := by
  induction rest generalizing first with
  | nil => exact (List.append_nil _).symm
  | cons second later inductionHypothesis =>
    have joined := inductionHypothesis (choice first second)
    rw [chars_choice, List.append_assoc] at joined
    exact joined

theorem chars_normalForm_choice (first second : Pattern) :
    (choice first second).normalForm.chars =
      first.normalForm.chars ++ '|' :: second.normalForm.chars := by
  change (alternatives (first.branches ++ second.branches)).chars = _
  unfold normalForm
  rcases List.exists_cons_of_ne_nil (branches_ne_nil first) with ⟨left, more, split⟩
  rcases List.exists_cons_of_ne_nil (branches_ne_nil second) with ⟨right, rest, splitSecond⟩
  rw [split, splitSecond, List.cons_append, chars_alternatives, chars_alternatives,
    chars_alternatives, List.flatMap_append, List.flatMap_cons, List.append_assoc]
  rfl

theorem chars_star_of_isUnit {inner : Pattern} (isUnit : inner.isUnit = true) :
    (star inner).chars = inner.chars ++ ['*'] := by
  cases inner with
  | literal character => rfl
  | star innermost => exact chars_star Pattern.noConfusion
  | empty | concat first second | choice first second => cases isUnit

theorem chars_star_of_not_isUnit {inner : Pattern} (notUnit : inner.isUnit = false) :
    (star inner).chars = '(' :: (inner.chars ++ [')']) ++ ['*'] := by
  cases inner with
  | literal character | star innermost => cases notUnit
  | empty => rfl
  | concat first second => exact chars_star Pattern.noConfusion
  | choice first second => exact chars_star Pattern.noConfusion

/-! ## Comparing texts -/

/-- The text `after` is what remains of `before` when some characters are deleted, and
`unchanged` says whether none are. -/
structure Trims (unchanged : Bool) (before after : Word) : Prop where
  sublist : after.Sublist before
  eq_iff : after = before ↔ unchanged = true

theorem Trims.same (word : Word) : Trims true word word :=
  ⟨List.Sublist.refl word, iff_of_true rfl rfl⟩

theorem Trims.append {first second : Bool} {left right leftAfter rightAfter : Word}
    (leftTrims : Trims first left leftAfter) (rightTrims : Trims second right rightAfter) :
    Trims (first && second) (left ++ right) (leftAfter ++ rightAfter) := by
  refine ⟨leftTrims.sublist.append rightTrims.sublist, ?_⟩
  rw [Bool.and_eq_true, ← leftTrims.eq_iff, ← rightTrims.eq_iff]
  constructor
  · intro same
    -- Neither half can make up for a character that the other half has lost.
    have leftLength := leftTrims.sublist.length_le
    have rightLength := rightTrims.sublist.length_le
    have sameLength := congrArg List.length same
    rw [List.length_append, List.length_append] at sameLength
    exact List.append_inj same (by omega)
  · intro sameHalves
    rcases sameHalves with ⟨sameLeft, sameRight⟩
    rw [sameLeft, sameRight]

theorem Trims.brackets {unchanged : Bool} {before after : Word}
    (trims : Trims unchanged before after) :
    Trims unchanged ('(' :: (before ++ [')'])) ('(' :: (after ++ [')'])) := by
  have bracketed := (Trims.same ['(']).append (trims.append (Trims.same [')']))
  rw [Bool.true_and, Bool.and_true] at bracketed
  exact bracketed

/-- A text is changed when brackets around what remains of it are deleted too. -/
theorem Trims.strip {unchanged : Bool} {before after : Word}
    (trims : Trims unchanged before ('(' :: (after ++ [')']))) : Trims false before after := by
  have inner : after.Sublist ('(' :: (after ++ [')'])) :=
    (List.sublist_append_left after [')']).trans (List.sublist_cons_self _ _)
  refine ⟨inner.trans trims.sublist, ?_⟩
  constructor
  · intro same
    have shorter := trims.sublist.length_le
    rw [← same, List.length_cons, List.length_append, List.length_singleton] at shorter
    omega
  · intro impossible
    cases impossible

/-! ## The text of the normal form -/

theorem Trims.star {unchanged : Bool} {before after : Pattern}
    (sameKind : before.isUnit = after.isUnit)
    (trims : Trims unchanged before.chars after.chars) :
    Trims unchanged (star before).chars (star after).chars := by
  rw [← Bool.and_true unchanged]
  cases unit : after.isUnit with
  | true =>
    rw [chars_star_of_isUnit unit, chars_star_of_isUnit (sameKind.trans unit)]
    exact trims.append (Trims.same ['*'])
  | false =>
    rw [chars_star_of_not_isUnit unit, chars_star_of_not_isUnit (sameKind.trans unit)]
    exact trims.brackets.append (Trims.same ['*'])

/-- The brackets under a star are lost when they are only put around one side. -/
theorem Trims.star_strip {unchanged : Bool} {before after : Pattern}
    (notUnit : before.isUnit = false) (unit : after.isUnit = true)
    (trims : Trims unchanged before.chars after.chars) :
    Trims false (Pattern.star before).chars (Pattern.star after).chars := by
  rw [chars_star_of_isUnit unit, chars_star_of_not_isUnit notUnit]
  exact trims.brackets.strip.append (Trims.same ['*'])

theorem trims_star {inner : Pattern}
    (trims : Trims inner.needsItsBrackets inner.chars inner.normalForm.chars) :
    Trims (star inner).needsItsInnerBrackets (star inner).chars
      (star inner.normalForm).chars := by
  have unit := isUnit_normalForm inner
  rw [needsItsInnerBrackets]
  rw [needsItsBrackets, isLoneChoice] at trims
  rw [isLoneChoice] at unit
  cases lone : inner.isLone with
  | false =>
    rw [lone] at trims unit
    exact Trims.star (unit.trans (Bool.or_false _)).symm trims
  | true =>
    have notUnit := isUnit_of_isConcat (Bool.and_elim_left lone)
    rw [lone, notUnit] at unit
    cases allChoices : inner.parts.all isChoice with
    | false =>
      rw [allChoices] at unit
      exact Trims.star_strip notUnit unit trims
    | true =>
      rw [allChoices] at unit
      rw [lone, allChoices] at trims
      exact Trims.star (notUnit.trans unit.symm) trims

/-- What a pattern that is not a choice loses as a part of a sequence, and what it loses
on its own. -/
theorem trims_normalForm_of_row {pattern : Pattern} (notChoice : pattern.isChoice = false)
    (trims : Trims pattern.needsItsInnerBrackets (pattern.charsWithin 1)
      ((sequence pattern.items).charsWithin 1)) :
    Trims pattern.needsItsBrackets pattern.chars pattern.normalForm.chars := by
  have normalForm_eq : pattern.normalForm = sequence pattern.items := by
    rw [normalForm, branches_of_not_choice notChoice]
    rfl
  rw [charsWithin_one_of_not_choice notChoice] at trims
  rw [normalForm_eq, needsItsBrackets, ← isChoice_sequence_items notChoice]
  cases isChoice : (sequence pattern.items).isChoice with
  | false =>
    rw [charsWithin_one_of_not_choice isChoice] at trims
    exact trims
  | true =>
    rw [charsWithin_one_of_choice isChoice] at trims
    exact trims.strip

theorem trims_normalForm (pattern : Pattern) :
    Trims pattern.needsItsInnerBrackets (pattern.charsWithin 1)
        ((sequence pattern.items).charsWithin 1) ∧
      Trims pattern.needsItsBrackets pattern.chars pattern.normalForm.chars := by
  induction pattern with
  | empty => exact ⟨Trims.same _, Trims.same _⟩
  | literal character => exact ⟨Trims.same _, Trims.same _⟩
  | concat first second firstHypothesis secondHypothesis =>
    have row := firstHypothesis.1.append secondHypothesis.1
    rw [← charsWithin_one_concat, ← charsWithin_one_sequence_append] at row
    exact ⟨row, trims_normalForm_of_row rfl row⟩
  | choice first second firstHypothesis secondHypothesis =>
    have bar := (Trims.same ['|']).append secondHypothesis.2
    have whole := firstHypothesis.2.append bar
    rw [Bool.true_and] at whole
    have joined : Trims (choice first second).needsItsBrackets (choice first second).chars
        (choice first second).normalForm.chars := by
      rw [chars_choice, chars_normalForm_choice]
      exact whole
    refine ⟨?_, joined⟩
    change Trims _ ((choice first second).charsWithin 1)
      ((choice first second).normalForm.charsWithin 1)
    rw [charsWithin_one_of_choice rfl,
      charsWithin_one_of_choice (isChoice_normalForm_choice first second)]
    exact joined.brackets
  | star inner inductionHypothesis =>
    have row := trims_star inductionHypothesis.2
    exact ⟨row, trims_normalForm_of_row rfl row⟩

/-- The text of the normal form is the text of the pattern exactly if no brackets in it
could be left out. -/
theorem chars_normalForm_eq_iff (pattern : Pattern) :
    pattern.normalForm.chars = pattern.chars ↔ pattern.needsItsBrackets = true :=
  (trims_normalForm pattern).2.eq_iff

/-- Writing what is read from the written form gives the same text again exactly if the
pattern needs all of its brackets. -/
theorem rendering_stable_iff (pattern : Pattern) (plain : pattern.Plain) :
    (exists result, parse pattern.render = .ok result ∧ result.render = pattern.render) ↔
      pattern.needsItsBrackets = true := by
  rw [← chars_normalForm_eq_iff, parse_render plain]
  constructor
  · intro stable
    rcases stable with ⟨result, isResult, sameText⟩
    cases isResult
    exact String.ofList_injective sameText
  · intro sameChars
    exact ⟨pattern.normalForm, rfl, congrArg String.ofList sameChars⟩

/-- An empty part in front of a choice puts brackets around it. -/
def bracketedChoice : Pattern := .concat .empty (.choice (.literal 'a') (.literal 'b'))

theorem rendering_stable_bracketedChoice :
    (concat (literal 'c') bracketedChoice).Plain ∧
      exists result, parse "c(a|b)" = .ok result ∧ result.render = "c(a|b)" := by
  have plain : (concat (literal 'c') bracketedChoice).Plain := by decide
  have written : (concat (literal 'c') bracketedChoice).render = "c(a|b)" := by decide
  have stable := (rendering_stable_iff (concat (literal 'c') bracketedChoice) plain).mpr
    (by decide)
  rw [written] at stable
  exact ⟨plain, stable⟩

/-- Without the condition the text can change: when the choice has been read, nothing says
any more that an empty part stood in front of it. -/
theorem rendering_not_stable : ¬ forall pattern : Pattern, pattern.Plain ->
    exists result, parse pattern.render = .ok result ∧ result.render = pattern.render := by
  intro stable
  have plain : bracketedChoice.Plain := by decide
  rcases stable bracketedChoice plain with ⟨result, isResult, sameText⟩
  have readAs : parse bracketedChoice.render = .ok (.choice (.literal 'a') (.literal 'b')) := by
    rw [parse_eq_read]
    decide
  rw [readAs] at isResult
  cases isResult
  exact absurd sameText (by decide)

end Pattern
end FiniteAutomata
