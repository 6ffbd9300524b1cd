namespace FiniteAutomata

universe u

/-!
# Finite sets kept in ascending order

A `SortedSet` is the ascending list of its members, each listed once. The list
is therefore determined by the members: two sets are equal exactly when the
same elements belong to them (`SortedSet.ext`), however they were put together.
That makes a set usable as the identity of a state of a deterministic
automaton. Every operation is described by what it does to membership.
-/

/-- A finite set, represented by the ascending list of its members. -/
structure SortedSet (α : Type u) [LT α] where
  /-- The members, in ascending order and without repetitions. -/
  toList : List α
  ascending : toList.Pairwise (· < ·)

namespace SortedSet

section Construction

variable {α : Type u} [LT α]

def empty : SortedSet α := ⟨[], List.Pairwise.nil⟩

instance : EmptyCollection (SortedSet α) := ⟨empty⟩

instance : Inhabited (SortedSet α) := ⟨empty⟩

/-- The empty set again: the room asked for cannot be observed, because a set
is its members and nothing else. -/
def emptyWithCapacity (_capacity : Nat) : SortedSet α := empty

def singleton (element : α) : SortedSet α :=
  ⟨[element], List.pairwise_singleton _ _⟩

instance : Singleton α (SortedSet α) := ⟨singleton⟩

instance : Membership α (SortedSet α) := ⟨fun set element => element ∈ set.toList⟩

theorem mem_def {element : α} {set : SortedSet α} :
    element ∈ set ↔ element ∈ set.toList :=
  Iff.rfl

instance [DecidableEq α] (element : α) (set : SortedSet α) :
    Decidable (element ∈ set) :=
  inferInstanceAs (Decidable (element ∈ set.toList))

def contains [DecidableEq α] (set : SortedSet α) (element : α) : Bool :=
  decide (element ∈ set)

def size (set : SortedSet α) : Nat := set.toList.length

def isEmpty (set : SortedSet α) : Bool := set.toList.isEmpty

def filter (set : SortedSet α) (keep : α -> Bool) : SortedSet α :=
  ⟨set.toList.filter keep, set.ascending.filter keep⟩

def intersects [DecidableEq α] (first second : SortedSet α) : Bool :=
  first.toList.any second.contains

/-- Whether every member of the first set belongs to the second. -/
def isSubset [DecidableEq α] (first second : SortedSet α) : Bool :=
  first.toList.all second.contains

instance : HasSubset (SortedSet α) :=
  ⟨fun first second => forall element, element ∈ first -> element ∈ second⟩

instance [DecidableEq α] : DecidableEq (SortedSet α) := fun first second =>
  decidable_of_iff (first.toList = second.toList) <| by
    cases first
    cases second
    simp

/-- Sets are hashed by their size and then their members in order. -/
instance [Hashable α] : Hashable (SortedSet α) :=
  ⟨fun set => set.toList.foldl (fun code member => mixHash code (hash member))
    (hash set.size)⟩

/-- Sets are ordered like dictionary entries: the ascending lists of members
are compared member by member, and a list comes before its continuations. -/
instance [Ord α] : Ord (SortedSet α) :=
  ⟨fun first second => List.compareLex compare first.toList second.toList⟩

end Construction

section Insertion

variable {α : Type u} [LT α] [DecidableLT α]

/-- Puts `element` where it belongs in an ascending list, unless it is there. -/
def insertAscending (element : α) : List α -> List α
  | [] => [element]
  | head :: tail =>
    if element < head then element :: head :: tail
    else if head < element then head :: insertAscending element tail
    else head :: tail

variable [LE α] [Std.IsLinearOrder α] [Std.LawfulOrderLT α]

theorem mem_insertAscending {element other : α} {list : List α} :
    other ∈ insertAscending element list ↔ other = element ∨ other ∈ list := by
  induction list with
  | nil => simp [insertAscending]
  | cons head tail inductionHypothesis =>
    rw [insertAscending]
    split
    · simp
    · split
      · simp only [List.mem_cons, inductionHypothesis]
        grind
      · have same : element = head := by grind
        subst same
        simp

theorem ascending_insertAscending (element : α) {list : List α}
    (ascending : list.Pairwise (· < ·)) :
    (insertAscending element list).Pairwise (· < ·) := by
  induction list with
  | nil => exact List.pairwise_singleton _ _
  | cons head tail inductionHypothesis =>
    obtain ⟨headBelow, tailAscending⟩ := List.pairwise_cons.mp ascending
    by_cases below : element < head
    · rw [insertAscending, if_pos below]
      refine List.pairwise_cons.mpr ⟨fun other member => ?_, ascending⟩
      rcases List.mem_cons.mp member with same | inTail
      · exact same ▸ below
      · exact Std.lt_trans below (headBelow other inTail)
    · by_cases above : head < element
      · rw [insertAscending, if_neg below, if_pos above]
        refine List.pairwise_cons.mpr
          ⟨fun other member => ?_, inductionHypothesis tailAscending⟩
        rcases mem_insertAscending.mp member with same | inTail
        · exact same ▸ above
        · exact headBelow other inTail
      · rw [insertAscending, if_neg below, if_neg above]
        exact ascending

def insert (set : SortedSet α) (element : α) : SortedSet α :=
  ⟨insertAscending element set.toList, ascending_insertAscending element set.ascending⟩

/-- Adds `element` and says whether it was new. -/
def insertNew [DecidableEq α] (set : SortedSet α) (element : α) : Bool × SortedSet α :=
  (!set.contains element, set.insert element)

/-- The set with all of `elements` added, in the order given. -/
def insertMany (set : SortedSet α) (elements : List α) : SortedSet α :=
  elements.foldl insert set

/-- The set of the elements of a list, which may be in any order and repeat. -/
def ofList (elements : List α) : SortedSet α := insertMany empty elements

def union (first second : SortedSet α) : SortedSet α :=
  first.insertMany second.toList

instance : Union (SortedSet α) := ⟨union⟩

/-- The set of what a function makes of the members. -/
def image (function : α -> α) (set : SortedSet α) : SortedSet α :=
  ofList (set.toList.map function)

end Insertion

end SortedSet

end FiniteAutomata
