import FiniteAutomata.Pattern.Rendering
import FiniteAutomata.Proofs.Pattern.NormalForm
import FiniteAutomata.Proofs.Pattern.Parsing

namespace FiniteAutomata
namespace Pattern

/-!
# Reading what was written

The written form of a pattern without reserved literals is read as its normal form.
Whether brackets are put around it depends on the context, but they only keep its
items or branches together and leave no trace.

The induction follows the written form through the two kinds of context in which the
reader goes on: as a part of a sequence a pattern adds its items to the group that is
being read, and on its own or as a part of a choice it adds its branches.
-/

/-! ## Brackets by precedence -/

/-- Only a choice needs brackets in a sequence. -/
theorem charsWithin_one_of_not_choice {pattern : Pattern}
    (notChoice : pattern.isChoice = false) : pattern.charsWithin 1 = pattern.chars := by
  apply charsWithin_of_le
  cases pattern with
  | choice first second => cases notChoice
  | empty | literal character | concat first second | star inner => simp [precedence]

theorem charsWithin_one_concat (first second : Pattern) :
    (concat first second).charsWithin 1 = first.charsWithin 1 ++ second.charsWithin 1 := by
  rw [charsWithin_one_of_not_choice rfl, chars_concat]

/-! ## Plain patterns -/

theorem Plain.of_concat {first second : Pattern} (plain : (concat first second).Plain) :
    first.Plain ∧ second.Plain :=
  List.forall_mem_append.mp plain

theorem Plain.of_choice {first second : Pattern} (plain : (choice first second).Plain) :
    first.Plain ∧ second.Plain :=
  List.forall_mem_append.mp plain

/-! ## The written form in its contexts -/

/-- As a part of a sequence the pattern is read as its items. -/
def AddsItems (pattern : Pattern) : Prop :=
  forall branches items : List Pattern, Consumes (pattern.charsWithin 1)
    ⟨branches, items⟩ ⟨branches, pattern.items.reverse ++ items⟩

/-- On its own or as a part of a choice the pattern is read as its branches.  The last of
them is ended by what follows. -/
def AddsBranches (pattern : Pattern) : Prop :=
  forall branches : List Pattern, exists group : Group,
    Consumes pattern.chars ⟨branches, []⟩ group ∧
      group.endBranch.branches = pattern.branches.reverse ++ branches

theorem AddsItems.addsBranches {pattern : Pattern} (addsItems : pattern.AddsItems)
    (notChoice : pattern.isChoice = false) : pattern.AddsBranches := by
  intro branches
  have consumes := addsItems branches []
  rw [charsWithin_one_of_not_choice notChoice] at consumes
  refine ⟨_, consumes, ?_⟩
  rw [branches_of_not_choice notChoice, List.append_nil]
  change sequence pattern.items.reverse.reverse :: branches = _
  rw [List.reverse_reverse]
  rfl

/-- A text that is read as the branches of a pattern is read as its normal form. -/
theorem AddsBranches.reads_normalForm {pattern : Pattern}
    (addsBranches : pattern.AddsBranches) : exists group : Group,
      Consumes pattern.chars {} group ∧ group.pattern = pattern.normalForm := by
  rcases addsBranches [] with ⟨group, consumes, ended⟩
  refine ⟨group, consumes, ?_⟩
  change alternatives group.endBranch.branches.reverse = _
  rw [ended, List.append_nil, List.reverse_reverse]
  rfl

theorem AddsBranches.brackets {pattern : Pattern} (addsBranches : pattern.AddsBranches)
    (group : Group) :
    Consumes ('(' :: (pattern.chars ++ [')'])) group (group.push pattern.normalForm) := by
  rcases addsBranches.reads_normalForm with ⟨inner, consumes, isNormalForm⟩
  rw [← isNormalForm]
  exact consumes.brackets group

/-- Under a star the pattern is read as a single item. -/
theorem consumes_operand {pattern : Pattern} (notEmpty : pattern ≠ empty)
    (addsItems : pattern.AddsItems) (addsBranches : pattern.AddsBranches) (group : Group) :
    Consumes (pattern.charsWithin 2) group (group.push pattern.normalForm) := by
  cases pattern with
  | empty => exact absurd rfl notEmpty
  | literal character => exact addsItems group.branches group.items
  | star inner => exact addsItems group.branches group.items
  | concat first second => exact addsBranches.brackets group
  | choice first second => exact addsBranches.brackets group

theorem addsItems_star {inner : Pattern} (addsItems : inner.AddsItems)
    (addsBranches : inner.AddsBranches) : (star inner).AddsItems := by
  intro branches items
  rw [charsWithin_one_of_not_choice rfl]
  by_cases isEmpty : inner = empty
  · rw [isEmpty]
    exact ((consumes_nil {}).brackets ⟨branches, items⟩).append (consumes_star _ empty)
  · rw [chars_star isEmpty]
    have operand := consumes_operand isEmpty addsItems addsBranches ⟨branches, items⟩
    exact operand.append (consumes_star _ inner.normalForm)

theorem addsItems_and_addsBranches {pattern : Pattern} (plain : pattern.Plain) :
    pattern.AddsItems ∧ pattern.AddsBranches := by
  induction pattern with
  | empty =>
    have addsItems : empty.AddsItems := fun _ _ => consumes_nil _
    exact ⟨addsItems, addsItems.addsBranches rfl⟩
  | literal character =>
    have isLiteral := plain character List.mem_cons_self
    have addsItems : (literal character).AddsItems := fun _ _ => consumes_literal _ isLiteral
    exact ⟨addsItems, addsItems.addsBranches rfl⟩
  | concat first second firstHypothesis secondHypothesis =>
    have addsItems : (concat first second).AddsItems := by
      intro branches items
      have left := (firstHypothesis plain.of_concat.1).1 branches items
      have right := (secondHypothesis plain.of_concat.2).1 branches (first.items.reverse ++ items)
      rw [charsWithin_one_concat, Pattern.items, List.reverse_append, List.append_assoc]
      exact left.append right
    exact ⟨addsItems, addsItems.addsBranches rfl⟩
  | choice first second firstHypothesis secondHypothesis =>
    have addsBranches : (choice first second).AddsBranches := by
      intro branches
      rcases (firstHypothesis plain.of_choice.1).2 branches with ⟨left, leftConsumes, leftEnded⟩
      rcases (secondHypothesis plain.of_choice.2).2 left.endBranch.branches with
        ⟨right, rightConsumes, rightEnded⟩
      refine ⟨right, ?_, ?_⟩
      · rw [chars_choice]
        exact leftConsumes.append ((consumes_bar left).append rightConsumes)
      · rw [rightEnded, leftEnded, Pattern.branches, List.reverse_append, List.append_assoc]
    exact ⟨fun branches items => addsBranches.brackets ⟨branches, items⟩, addsBranches⟩
  | star inner inductionHypothesis =>
    rcases inductionHypothesis plain with ⟨innerItems, innerBranches⟩
    have addsItems := addsItems_star innerItems innerBranches
    exact ⟨addsItems, addsItems.addsBranches rfl⟩

/-! ## Reading the whole text -/

/-- Whatever the context, the written form is read as the normal form. -/
theorem read_charsWithin {pattern : Pattern} (plain : pattern.Plain) (context : Nat) :
    read (pattern.charsWithin context) = .ok pattern.normalForm := by
  have addsBranches := (addsItems_and_addsBranches plain).2
  by_cases loose : pattern.precedence < context
  · rw [charsWithin_of_lt loose]
    exact (addsBranches.brackets {}).read_eq
  · rw [charsWithin_of_le (Nat.le_of_not_lt loose)]
    rcases addsBranches.reads_normalForm with ⟨group, consumes, isNormalForm⟩
    rw [← isNormalForm]
    exact consumes.read_eq

theorem parse_renderWithin {pattern : Pattern} (plain : pattern.Plain) (context : Nat) :
    parse (pattern.renderWithin context) = .ok pattern.normalForm := by
  rw [parse_eq_read, renderWithin, String.toList_ofList]
  exact read_charsWithin plain context

theorem parse_render {pattern : Pattern} (plain : pattern.Plain) :
    parse pattern.render = .ok pattern.normalForm := by
  rw [← renderWithin_zero]
  exact parse_renderWithin plain 0

/-- Writing a pattern does not change what it matches.  The text can be read, what is read
is equivalent to the pattern, and in no context do brackets make a difference. -/
theorem rendering_preserves_matches (pattern : Pattern) (plain : pattern.Plain) :
    exists result, parse pattern.render = .ok result ∧ result.Equivalent pattern ∧
      forall context : Nat, parse (pattern.renderWithin context) = .ok result :=
  ⟨pattern.normalForm, parse_render plain, normalForm_equivalent pattern,
    parse_renderWithin plain⟩

/-- Sequences nested to the right, with an empty part in front of a choice. -/
def emptyBeforeChoice : Pattern :=
  .star (.concat (.literal 'a') (.concat .empty (.choice (.literal 'b') (.star .empty))))

theorem rendering_preserves_emptyBeforeChoice :
    emptyBeforeChoice.Plain ∧
      exists result, parse "(a(b|()*))*" = .ok result ∧ result.Equivalent emptyBeforeChoice ∧
        forall context : Nat, parse (emptyBeforeChoice.renderWithin context) = .ok result := by
  have plain : emptyBeforeChoice.Plain := by decide
  have written : emptyBeforeChoice.render = "(a(b|()*))*" := by decide
  rw [← written]
  exact ⟨plain, rendering_preserves_matches emptyBeforeChoice plain⟩

end Pattern
end FiniteAutomata
