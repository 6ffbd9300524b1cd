import FiniteAutomata.BitSet.Basic
import Mathlib.Data.Finset.Card

namespace FiniteAutomata

universe u v

/-!
# What can be observed of a set of states are its members

Each observation of a `BitSet` is decided by its members.  That the vectors of bits have
different lengths makes no difference to it, because a position beyond the end of a vector
reads as off.
-/

namespace SortedSet

variable {α : Type u} [LT α] [LE α] [Std.LawfulOrderLT α]

/-- The members as a finite set, without their order. -/
def members (set : SortedSet α) : Finset α := ⟨set.toList, set.nodup_toList⟩

@[simp]
theorem mem_members {set : SortedSet α} {element : α} : element ∈ set.members ↔ element ∈ set :=
  Iff.rfl

end SortedSet

/-- The order of dictionary entries, as a comparison and as a relation. -/
theorem compareLex_eq_lt_iff {first second : List StateId} :
    List.compareLex compare first second = .lt ↔ first < second := by
  induction first generalizing second with
  | nil => cases second <;> simp [List.compareLex]
  | cons head tail inductionHypothesis =>
    cases second with
    | nil => simp [List.compareLex]
    | cons otherHead otherTail =>
      rw [List.cons_lt_cons_iff, ← inductionHypothesis, ← Std.compare_eq_lt (α := StateId),
        ← Std.compare_eq_iff_eq (α := StateId)]
      simp only [List.compareLex]
      cases compare head otherHead <;> simp

namespace BitSet

variable {Bits : Type u} [GrowableBits Bits] {set first second third : BitSet Bits}

/-- The members of a set, as a finite set. -/
def members (set : BitSet Bits) : Finset StateId := set.toSortedSet.members

@[simp]
theorem mem_members {state : StateId} : state ∈ set.members ↔ state ∈ set :=
  mem_toList

/-! ## One set -/

theorem contains_eq_true {state : StateId} : set.contains state = true ↔ state ∈ set :=
  Iff.rfl

theorem isEmpty_eq_true : set.isEmpty = true ↔ forall state, ¬ state ∈ set := by
  rw [isEmpty, GrowableBits.isClear_iff]
  constructor
  · intro allOff state on
    rw [mem_def, allOff] at on
    cases on
  · intro noMembers position
    rw [Bool.eq_false_iff]
    intro on
    apply noMembers (UInt32.ofNat position)
    rw [mem_def, toNat_ofNat_of_on on]
    exact on

theorem size_eq_card (set : BitSet Bits) : set.size = set.members.card :=
  set.size_eq_length_toList

/-! ## Two sets -/

theorem intersects_eq_true :
    first.intersects second = true ↔ exists state, state ∈ first ∧ state ∈ second := by
  rw [intersects, List.isSome_head?, ← List.isEmpty_eq_false_iff,
    List.isEmpty_eq_false_iff_exists_mem]
  simp only [GrowableBits.mem_intersection]
  constructor
  · rintro ⟨position, inFirst, inSecond⟩
    refine ⟨UInt32.ofNat position, ?_⟩
    rw [mem_def, mem_def, toNat_ofNat_of_on inFirst]
    exact ⟨inFirst, inSecond⟩
  · rintro ⟨state, inFirst, inSecond⟩
    exact ⟨state.toNat, inFirst, inSecond⟩

theorem isSubset_eq_true :
    first.isSubset second = true ↔ forall state, state ∈ first -> state ∈ second := by
  simp only [isSubset, List.all_eq_true, mem_toList, contains_eq_true]

theorem beq_iff_toList_eq : (first == second) = true ↔ first.toList = second.toList :=
  beq_iff_eq (α := List StateId)

theorem beq_iff_members_eq : (first == second) = true ↔ first.members = second.members := by
  rw [beq_iff_toList_eq, toList_eq_iff, Finset.ext_iff]
  simp only [mem_members]

/-- The room that was asked for makes no difference. -/
example : ((emptyWithCapacity 2 : BitSet SparseBits).insertNew 1).2 ==
    ((emptyWithCapacity 256).insertNew 1).2 := by
  decide +kernel

/-- Equal sets cannot be told apart by a hasher. -/
theorem feed_eq_of_beq (equal : (first == second) = true) {Digest : Type v}
    (hasher : Hasher Digest) (digest : Digest) :
    first.feed hasher digest = second.feed hasher digest := by
  have sameList := beq_iff_toList_eq.mp equal
  rw [feed, feed, size_eq_length_toList, size_eq_length_toList, sameList]

/-! ## Order -/

theorem compare_eq_lt_iff : compare first second = .lt ↔ first.toList < second.toList :=
  compareLex_eq_lt_iff

theorem compare_eq_eq_iff : compare first second = .eq ↔ (first == second) = true := by
  have lawful : Std.LawfulEqCmp (List.compareLex (compare : StateId -> StateId -> Ordering)) :=
    inferInstance
  rw [beq_iff_toList_eq]
  exact lawful.compare_eq_iff_eq

/-- Sets are ordered as the lists of their members are. -/
instance : Std.TransOrd (BitSet Bits) :=
  have lists : Std.TransCmp (List.compareLex (compare : StateId -> StateId -> Ordering)) :=
    inferInstance
  { eq_swap := lists.eq_swap
    isLE_trans := lists.isLE_trans }

end BitSet

end FiniteAutomata
