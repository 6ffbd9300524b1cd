import FiniteAutomata.SortedSet.Basic

namespace FiniteAutomata

universe u v

/-!
# Membership determines a sorted set

One lemma per operation says which elements belong to its result. Together with
`SortedSet.ext` they make it unnecessary to look at the ascending lists again.
-/

/-- To insert the elements of a list one by one adds them all, whatever kind of set they are
inserted into. -/
theorem mem_foldl_insert {α : Type u} {Sets : Type v} [Membership α Sets]
    {insert : Sets -> α -> Sets}
    (mem_insert : forall set element other,
      other ∈ insert set element ↔ other = element ∨ other ∈ set)
    {elements : List α} {set : Sets} {other : α} :
    other ∈ elements.foldl insert set ↔ other ∈ set ∨ other ∈ elements := by
  induction elements generalizing set with
  | nil => simp
  | cons head tail inductionHypothesis =>
    rw [List.foldl_cons, inductionHypothesis, mem_insert, List.mem_cons]
    constructor
    · rintro ((equal | member) | later)
      · exact Or.inr (Or.inl equal)
      · exact Or.inl member
      · exact Or.inr (Or.inr later)
    · rintro (member | equal | later)
      · exact Or.inl (Or.inr member)
      · exact Or.inl (Or.inl equal)
      · exact Or.inr later

namespace SortedSet

section Membership

variable {α : Type u} [LT α]

theorem toList_injective {first second : SortedSet α}
    (same : first.toList = second.toList) : first = second := by
  cases first
  cases second
  simpa using same

@[simp]
theorem not_mem_empty (element : α) : ¬ element ∈ (∅ : SortedSet α) :=
  List.not_mem_nil

@[simp]
theorem mem_singleton {element other : α} :
    other ∈ (singleton element : SortedSet α) ↔ other = element :=
  List.mem_singleton

@[simp]
theorem mem_toList {element : α} {set : SortedSet α} :
    element ∈ set.toList ↔ element ∈ set :=
  Iff.rfl

@[simp]
theorem mem_filter {element : α} {set : SortedSet α} {keep : α -> Bool} :
    element ∈ set.filter keep ↔ element ∈ set ∧ keep element = true :=
  List.mem_filter

@[simp]
theorem contains_eq_true [DecidableEq α] {set : SortedSet α} {element : α} :
    set.contains element = true ↔ element ∈ set := by
  simp [contains]

theorem contains_eq_false [DecidableEq α] {set : SortedSet α} {element : α} :
    set.contains element = false ↔ ¬ element ∈ set := by
  simp [contains]

theorem isEmpty_eq_true {set : SortedSet α} :
    set.isEmpty = true ↔ forall element, ¬ element ∈ set := by
  rw [isEmpty, List.isEmpty_iff, List.eq_nil_iff_forall_not_mem]
  rfl

theorem intersects_eq_true [DecidableEq α] {first second : SortedSet α} :
    first.intersects second = true ↔ exists element, element ∈ first ∧ element ∈ second := by
  simp [intersects]

theorem isSubset_eq_true [DecidableEq α] {first second : SortedSet α} :
    first.isSubset second = true ↔ first ⊆ second := by
  rw [isSubset, List.all_eq_true]
  simp only [mem_toList, contains_eq_true]
  rfl

theorem nodup_toList [LE α] [Std.LawfulOrderLT α] (set : SortedSet α) :
    set.toList.Nodup := by
  refine set.ascending.imp ?_
  intro first second below equal
  exact Std.lt_irrefl (equal ▸ below)

end Membership

section Order

variable {α : Type u} [LT α] [LE α] [Std.IsLinearOrder α] [Std.LawfulOrderLT α]

private theorem eq_of_same_members {first second : List α}
    (firstAscending : first.Pairwise (· < ·)) (secondAscending : second.Pairwise (· < ·))
    (same : forall element, element ∈ first ↔ element ∈ second) : first = second := by
  induction first generalizing second with
  | nil =>
    cases second with
    | nil => rfl
    | cons head tail => simpa using same head
  | cons firstHead firstTail inductionHypothesis =>
    cases second with
    | nil => simpa using same firstHead
    | cons secondHead secondTail =>
      obtain ⟨firstBelow, firstTailAscending⟩ := List.pairwise_cons.mp firstAscending
      obtain ⟨secondBelow, secondTailAscending⟩ := List.pairwise_cons.mp secondAscending
      have headsEqual : firstHead = secondHead := by
        have firstIn := (same firstHead).mp List.mem_cons_self
        have secondIn := (same secondHead).mpr List.mem_cons_self
        rcases List.mem_cons.mp firstIn with equal | firstLater
        · exact equal
        · rcases List.mem_cons.mp secondIn with equal | secondLater
          · exact equal.symm
          · exact absurd (Std.lt_trans (firstBelow _ secondLater) (secondBelow _ firstLater))
              Std.lt_irrefl
      subst headsEqual
      refine congrArg (List.cons firstHead)
        (inductionHypothesis firstTailAscending secondTailAscending fun element => ?_)
      have notHeadLeft : element ∈ firstTail -> element ≠ firstHead := fun member equal =>
        Std.lt_irrefl (equal ▸ firstBelow element member)
      have notHeadRight : element ∈ secondTail -> element ≠ firstHead := fun member equal =>
        Std.lt_irrefl (equal ▸ secondBelow element member)
      have both := same element
      simp only [List.mem_cons] at both
      constructor
      · intro member
        exact (both.mp (Or.inr member)).resolve_left (notHeadLeft member)
      · intro member
        exact (both.mpr (Or.inr member)).resolve_left (notHeadRight member)

/-- Sets with the same members are equal. -/
@[ext]
theorem ext {first second : SortedSet α}
    (same : forall element, element ∈ first ↔ element ∈ second) : first = second :=
  toList_injective (eq_of_same_members first.ascending second.ascending same)

variable [DecidableLT α]

@[simp]
theorem mem_insert {set : SortedSet α} {element other : α} :
    other ∈ set.insert element ↔ other = element ∨ other ∈ set :=
  mem_insertAscending

theorem mem_insertMany {set : SortedSet α} {elements : List α} {other : α} :
    other ∈ set.insertMany elements ↔ other ∈ set ∨ other ∈ elements :=
  mem_foldl_insert (fun _ _ _ => mem_insert)

@[simp]
theorem mem_ofList {elements : List α} {other : α} :
    other ∈ ofList elements ↔ other ∈ elements := by
  rw [ofList, mem_insertMany]
  exact or_iff_right (not_mem_empty other)

@[simp]
theorem mem_union {first second : SortedSet α} {other : α} :
    other ∈ first ∪ second ↔ other ∈ first ∨ other ∈ second :=
  mem_insertMany

@[simp]
theorem mem_image {function : α -> α} {set : SortedSet α} {other : α} :
    other ∈ set.image function ↔ exists element, element ∈ set ∧ function element = other := by
  rw [image, mem_ofList, List.mem_map]
  rfl

/-- A function that is injective on a set has different images for its subsets. -/
theorem image_injective {function : α -> α} {bound first second : SortedSet α}
    (injective : forall element other, element ∈ bound -> other ∈ bound ->
      function element = function other -> element = other)
    (firstWithin : first ⊆ bound) (secondWithin : second ⊆ bound)
    (same : first.image function = second.image function) : first = second := by
  have carried : forall smaller larger : SortedSet α, smaller ⊆ bound -> larger ⊆ bound ->
      smaller.image function = larger.image function ->
        forall element, element ∈ smaller -> element ∈ larger := by
    intro smaller larger smallerWithin largerWithin equal element member
    have inImage : function element ∈ larger.image function :=
      equal ▸ mem_image.mpr ⟨element, member, rfl⟩
    rcases mem_image.mp inImage with ⟨other, isMember, reached⟩
    have unchanged := injective other element (largerWithin other isMember)
      (smallerWithin element member) reached
    exact unchanged ▸ isMember
  ext element
  exact ⟨carried first second firstWithin secondWithin same element,
    carried second first secondWithin firstWithin same.symm element⟩

end Order

/-- An ascending list of numbers is found by searching the numbers below a bound, if it has
exactly those that pass a test. -/
theorem eq_filter_range {list : List Nat} {bound : Nat} {test : Nat -> Bool}
    (ascending : list.Pairwise (· < ·))
    (listed : forall number, number ∈ list ↔ number < bound ∧ test number = true) :
    list = (List.range bound).filter test := by
  have searched : ((List.range bound).filter test).Pairwise (· < ·) :=
    List.pairwise_lt_range.filter test
  have same : (⟨list, ascending⟩ : SortedSet Nat) = ⟨_, searched⟩ := by
    ext number
    simp only [mem_def, List.mem_filter, List.mem_range]
    exact listed number
  exact congrArg SortedSet.toList same

end SortedSet

end FiniteAutomata
