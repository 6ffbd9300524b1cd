import FiniteAutomata.Proofs.Pattern.Brackets

namespace FiniteAutomata
namespace Pattern

/-!
# Which patterns are read back

A pattern is read back from its written form exactly if it is its own normal form, so the
question is which patterns are.  These are the canonical ones, and each kind of node can
be looked at on its own.

What is lost elsewhere is found by counting.  Reading never makes a pattern larger: an
empty part of a sequence disappears, and everything else only changes its place.  If the
second part of a node comes back as the last item or branch of that node, then nothing
but this part can have come from it, and the first part comes back by itself.
-/

/-! ## Rows of items and branches -/

/-- Alone in a sequence, a pattern is read as it is on its own. -/
theorem sequence_items (pattern : Pattern) : sequence pattern.items = pattern.normalForm := by
  cases pattern <;> rfl

/-- An item is never empty and never a sequence. -/
theorem ne_empty_of_mem_items {pattern item : Pattern} (member : item ∈ pattern.items) :
    item ≠ empty := by
  intro isEmpty
  have unit := isUnit_of_mem_items pattern item member
  rw [isEmpty] at unit
  cases unit

theorem isConcat_of_mem_items {pattern item : Pattern} (member : item ∈ pattern.items) :
    item.isConcat = false := by
  have unit := isUnit_of_mem_items pattern item member
  cases item with
  | concat first second => cases unit
  | empty | literal character | choice first second | star inner => rfl

theorem items_eq_singleton {pattern : Pattern} (notEmpty : pattern ≠ empty)
    (notConcat : pattern.isConcat = false) : pattern.items = [pattern.normalForm] := by
  cases pattern with
  | empty => exact absurd rfl notEmpty
  | concat first second => cases notConcat
  | literal character | choice first second | star inner => rfl

theorem branches_eq_singleton {pattern : Pattern} (notChoice : pattern.isChoice = false) :
    pattern.branches = [pattern.normalForm] := by
  rw [branches_of_not_choice notChoice, sequence_items]

/-! ## Reading does not make a pattern larger -/

/-- The number of nodes of the pattern. -/
def size : Pattern -> Nat
  | empty => 1
  | literal _ => 1
  | concat first second => first.size + second.size + 1
  | choice first second => first.size + second.size + 1
  | star inner => inner.size + 1

theorem size_pos (pattern : Pattern) : 0 < pattern.size := by
  cases pattern <;> exact Nat.succ_pos _

/-- The number of nodes of a row, with one node before each part that joins it to those
on its left. -/
def rowSize : List Pattern -> Nat
  | [] => 0
  | first :: rest => first.size + 1 + rowSize rest

theorem rowSize_singleton (part : Pattern) : rowSize [part] = part.size + 1 := rfl

theorem rowSize_append (left right : List Pattern) :
    rowSize (left ++ right) = rowSize left + rowSize right := by
  induction left with
  | nil => exact (Nat.zero_add _).symm
  | cons first rest inductionHypothesis =>
    rw [List.cons_append, rowSize, rowSize, inductionHypothesis]
    omega

theorem rowSize_pos {row : List Pattern} (nonempty : row ≠ []) : 0 < rowSize row := by
  cases row with
  | nil => exact absurd rfl nonempty
  | cons first rest =>
    rw [rowSize]
    omega

theorem size_foldl {join : Pattern -> Pattern -> Pattern}
    (size_join : forall first second, (join first second).size = first.size + second.size + 1)
    (first : Pattern) (rest : List Pattern) :
    (rest.foldl join first).size = first.size + rowSize rest := by
  induction rest generalizing first with
  | nil => rfl
  | cons second later inductionHypothesis =>
    rw [List.foldl_cons, inductionHypothesis, size_join, rowSize]
    omega

theorem size_sequence {row : List Pattern} (nonempty : row ≠ []) :
    (sequence row).size + 1 = rowSize row := by
  cases row with
  | nil => exact absurd rfl nonempty
  | cons first rest =>
    change (rest.foldl concat first).size + 1 = _
    rw [size_foldl (fun _ _ => rfl), rowSize]
    omega

theorem size_alternatives {row : List Pattern} (nonempty : row ≠ []) :
    (alternatives row).size + 1 = rowSize row := by
  cases row with
  | nil => exact absurd rfl nonempty
  | cons first rest =>
    change (rest.foldl choice first).size + 1 = _
    rw [size_foldl (fun _ _ => rfl), rowSize]
    omega

/-- The items and the branches of a pattern are no larger than the pattern. -/
theorem rowSize_items_and_branches_le (pattern : Pattern) :
    rowSize pattern.items ≤ pattern.size + 1 ∧
      rowSize pattern.branches ≤ pattern.size + 1 := by
  induction pattern with
  | empty => exact ⟨Nat.zero_le _, Nat.le_refl _⟩
  | literal character => exact ⟨Nat.le_refl _, Nat.le_refl _⟩
  | concat first second firstHypothesis secondHypothesis =>
    have row : rowSize (first.items ++ second.items) ≤ (concat first second).size + 1 := by
      rw [rowSize_append, size]
      omega
    refine ⟨row, ?_⟩
    rw [branches, rowSize_singleton]
    by_cases nothing : first.items ++ second.items = []
    · rw [nothing]
      exact Nat.succ_le_succ (size_pos _)
    · rw [size_sequence nothing]
      exact row
  | choice first second firstHypothesis secondHypothesis =>
    have row : rowSize (choice first second).branches ≤ (choice first second).size + 1 := by
      rw [branches, rowSize_append, size]
      omega
    refine ⟨?_, row⟩
    rw [items_choice, rowSize_singleton, normalForm, size_alternatives (branches_ne_nil _)]
    exact row
  | star inner inductionHypothesis =>
    have row : rowSize [star inner.normalForm] ≤ (star inner).size + 1 := by
      have body := size_alternatives (branches_ne_nil inner)
      rw [rowSize_singleton, size, size, normalForm]
      omega
    exact ⟨row, row⟩

/-- If the last part of a node is also the last thing it comes back with, it comes back with
nothing else. -/
theorem eq_of_append_eq_append_singleton {before own row : List Pattern} {last : Pattern}
    (split : before ++ own = row ++ [last]) (nonempty : own ≠ [])
    (small : rowSize own ≤ last.size + 1) : before = row ∧ own = [last] := by
  rcases List.eq_nil_or_concat' own with nothing | ⟨earlier, final, ownSplit⟩
  · exact absurd nothing nonempty
  · rw [ownSplit, ← List.append_assoc] at split
    rcases List.append_singleton_inj.mp split with ⟨sameRow, sameLast⟩
    rw [ownSplit, rowSize_append, rowSize_singleton, sameLast] at small
    have noneEarlier : earlier = [] := by
      by_contra some
      have positive := rowSize_pos some
      omega
    rw [noneEarlier, List.append_nil] at sameRow
    rw [ownSplit, noneEarlier, sameLast]
    exact ⟨sameRow, rfl⟩

/-! ## Normal forms, node by node -/

theorem normalForm_star_eq_iff (inner : Pattern) :
    (star inner).normalForm = star inner ↔ inner.normalForm = inner := by
  change star inner.normalForm = star inner ↔ _
  rw [star.injEq]

theorem normalForm_concat_of_eq {first second : Pattern} (firstNotEmpty : first ≠ empty)
    (secondNotEmpty : second ≠ empty) (notConcat : second.isConcat = false)
    (firstSame : first.normalForm = first) (secondSame : second.normalForm = second) :
    (concat first second).normalForm = concat first second := by
  have firstItems : first.items ≠ [] := by
    intro nothing
    rw [← sequence_items, nothing] at firstSame
    exact firstNotEmpty firstSame.symm
  rw [← sequence_items, items, items_eq_singleton secondNotEmpty notConcat,
    sequence_append_singleton firstItems, sequence_items, firstSame, secondSame]

/-- A sequence that is its own normal form comes back with its second part as the last of
several items. -/
theorem exists_items_of_normalForm_concat {first second : Pattern}
    (same : (concat first second).normalForm = concat first second) :
    exists row, row ≠ [] ∧ first.items ++ second.items = row ++ [second] ∧
      sequence row = first := by
  rw [← sequence_items, items] at same
  rcases List.eq_nil_or_concat' (first.items ++ second.items) with nothing | ⟨row, last, split⟩
  · rw [nothing] at same
    cases same
  · rw [split] at same
    have severalItems : row ≠ [] := by
      intro alone
      rw [alone, List.nil_append] at same split
      -- A single item would have to be the sequence itself.
      have member : last ∈ (concat first second).items := by
        rw [items, split]
        exact List.mem_cons_self
      have notConcat := isConcat_of_mem_items member
      change last = concat first second at same
      rw [same] at notConcat
      cases notConcat
    rw [sequence_append_singleton severalItems] at same
    cases same
    exact ⟨row, severalItems, split, rfl⟩

theorem of_normalForm_concat {first second : Pattern}
    (same : (concat first second).normalForm = concat first second) :
    first ≠ empty ∧ second ≠ empty ∧ second.isConcat = false ∧
      first.normalForm = first ∧ second.normalForm = second := by
  rcases exists_items_of_normalForm_concat same with ⟨row, severalItems, split, isFirst⟩
  have firstSize := (rowSize_items_and_branches_le first).1
  have secondSize := (rowSize_items_and_branches_le second).1
  have secondItems : second.items ≠ [] := by
    intro nothing
    have total := congrArg rowSize split
    have rowEq := size_sequence severalItems
    rw [nothing, List.append_nil, rowSize_append, rowSize_singleton] at total
    rw [isFirst] at rowEq
    omega
  rcases eq_of_append_eq_append_singleton split secondItems secondSize with
    ⟨firstItems, itself⟩
  have member : second ∈ second.items := by
    rw [itself]
    exact List.mem_cons_self
  refine ⟨?_, ne_empty_of_mem_items member, isConcat_of_mem_items member, ?_, ?_⟩
  · intro isEmpty
    rw [isEmpty] at firstItems
    exact severalItems firstItems.symm
  · rw [← sequence_items, firstItems, isFirst]
  · rw [← sequence_items, itself]
    rfl

theorem normalForm_choice_of_eq {first second : Pattern} (notChoice : second.isChoice = false)
    (firstSame : first.normalForm = first) (secondSame : second.normalForm = second) :
    (choice first second).normalForm = choice first second := by
  have last : second.branches = [second] := by
    rw [branches_eq_singleton notChoice, secondSame]
  change alternatives (first.branches ++ second.branches) = _
  rw [last, alternatives_append_singleton (branches_ne_nil first)]
  change choice first.normalForm second = _
  rw [firstSame]

/-- A choice comes back as a branch for each of its two sides at least. -/
theorem isChoice_of_branches_eq_singleton {pattern branch : Pattern}
    (alone : pattern.branches = [branch]) : pattern.isChoice = false := by
  cases pattern with
  | choice first second =>
    rcases List.append_eq_singleton_iff.mp alone with ⟨nothing, _⟩ | ⟨_, nothing⟩
    · exact absurd nothing (branches_ne_nil first)
    · exact absurd nothing (branches_ne_nil second)
  | empty | literal character | concat first second | star inner => rfl

/-- A choice that is its own normal form comes back with its second part as the last of
several branches. -/
theorem exists_branches_of_normalForm_choice {first second : Pattern}
    (same : (choice first second).normalForm = choice first second) :
    exists row, first.branches ++ second.branches = row ++ [second] ∧
      alternatives row = first := by
  change alternatives (first.branches ++ second.branches) = _ at same
  rcases List.eq_nil_or_concat' second.branches with nothing | ⟨earlier, last, split⟩
  · exact absurd nothing (branches_ne_nil second)
  · have several : first.branches ++ earlier ≠ [] := fun nothing =>
      branches_ne_nil first (List.append_eq_nil_iff.mp nothing).1
    rw [split, ← List.append_assoc] at same ⊢
    rw [alternatives_append_singleton several] at same
    injection same with firstSame secondSame
    rw [secondSame]
    exact ⟨_, rfl, firstSame⟩

theorem of_normalForm_choice {first second : Pattern}
    (same : (choice first second).normalForm = choice first second) :
    second.isChoice = false ∧ first.normalForm = first ∧ second.normalForm = second := by
  rcases exists_branches_of_normalForm_choice same with ⟨row, split, isFirst⟩
  have secondSize := (rowSize_items_and_branches_le second).2
  rcases eq_of_append_eq_append_singleton split (branches_ne_nil second) secondSize with
    ⟨firstBranches, itself⟩
  refine ⟨isChoice_of_branches_eq_singleton itself, ?_, ?_⟩
  · rw [normalForm, firstBranches, isFirst]
  · rw [normalForm, itself]
    rfl

/-- A pattern is its own normal form exactly if it is canonical. -/
theorem normalForm_eq_self_iff (pattern : Pattern) :
    pattern.normalForm = pattern ↔ pattern.isCanonical = true := by
  induction pattern with
  | empty => exact ⟨fun _ => rfl, fun _ => rfl⟩
  | literal character => exact ⟨fun _ => rfl, fun _ => rfl⟩
  | concat first second firstHypothesis secondHypothesis =>
    simp only [isCanonical, Bool.and_eq_true, bne_iff_ne, Bool.not_eq_true', ← firstHypothesis,
      ← secondHypothesis]
    constructor
    · intro same
      rcases of_normalForm_concat same with ⟨firstNotEmpty, secondNotEmpty, notConcat, rest⟩
      exact ⟨⟨⟨⟨firstNotEmpty, secondNotEmpty⟩, notConcat⟩, rest.1⟩, rest.2⟩
    · rintro ⟨⟨⟨⟨firstNotEmpty, secondNotEmpty⟩, notConcat⟩, firstSame⟩, secondSame⟩
      exact normalForm_concat_of_eq firstNotEmpty secondNotEmpty notConcat firstSame secondSame
  | choice first second firstHypothesis secondHypothesis =>
    simp only [isCanonical, Bool.and_eq_true, Bool.not_eq_true', ← firstHypothesis,
      ← secondHypothesis]
    constructor
    · intro same
      rcases of_normalForm_choice same with ⟨notChoice, firstSame, secondSame⟩
      exact ⟨⟨notChoice, firstSame⟩, secondSame⟩
    · rintro ⟨⟨notChoice, firstSame⟩, secondSame⟩
      exact normalForm_choice_of_eq notChoice firstSame secondSame
  | star inner inductionHypothesis =>
    rw [normalForm_star_eq_iff, inductionHypothesis]
    exact Iff.rfl

/-- Reading undoes writing exactly for the canonical patterns. -/
theorem rendering_invertible_iff (pattern : Pattern) (plain : pattern.Plain) :
    parse pattern.render = .ok pattern ↔ pattern.isCanonical = true := by
  rw [← normalForm_eq_self_iff, parse_render plain, Except.ok.injEq]

/-- Empty bodies and branches come back, and so does a choice in front of a sequence. -/
def emptyBranches : Pattern :=
  .star (.concat (.concat (.choice .empty (.star .empty)) (.literal 'a'))
    (.choice (.choice (.literal 'b') .empty) (.star (.literal 'c'))))

theorem rendering_invertible_emptyBranches :
    emptyBranches.Plain ∧ emptyBranches.render = "((|()*)a(b||c*))*" ∧
      parse emptyBranches.render = .ok emptyBranches := by
  have plain : emptyBranches.Plain := by decide
  have canonical : emptyBranches.isCanonical = true := by decide
  exact ⟨plain, by decide, (rendering_invertible_iff emptyBranches plain).mpr canonical⟩

end Pattern
end FiniteAutomata
