import FiniteAutomata.SortedSet.Lemmas

namespace FiniteAutomata

universe u

/-!
# Vectors of bits that can grow

`GrowableBits Bits` says that the type `Bits` has the operations of a growable vector of
bits, and what they do to the bits.  A vector has a length; its positions below the length
are on or off, and a position beyond it reads as off.  A vector grows by positions that are
off, so growing cannot be noticed by reading.

What is assumed of a union is only what holds if the first vector is at least as long as the
second: whether a union may grow its first argument is left open.

`SparseBits` is a vector that stores which of its positions are on.
-/

/-- The operations of a growable vector of bits. -/
class GrowableBits (Bits : Type u) where
  /-- As many bits as are asked for, all of them off. -/
  withCapacity : Nat -> Bits
  length : Bits -> Nat
  /-- The vector with at least as many bits as are asked for. -/
  grow : Bits -> Nat -> Bits
  /-- Whether the bit at a position is on.  Any position may be asked for. -/
  contains : Bits -> Nat -> Bool
  /-- Turns a bit on and says whether it was on before.  The vector must have the bit. -/
  put : (bits : Bits) -> (position : Nat) -> position < length bits -> Bool × Bits
  isClear : Bits -> Bool
  countOnes : Bits -> Nat
  /-- The positions that are on. -/
  ones : Bits -> List Nat
  unionWith : Bits -> Bits -> Bits
  /-- The positions that are on in both vectors. -/
  intersection : Bits -> Bits -> List Nat
  -- What the operations do is said by the bits that are on afterwards.
  contains_withCapacity : forall capacity position,
    contains (withCapacity capacity) position = false
  lt_length_of_contains : forall bits position,
    contains bits position = true -> position < length bits
  le_length_grow : forall bits capacity, capacity ≤ length (grow bits capacity)
  contains_grow_of_lt : forall bits capacity position, position < length bits ->
    contains (grow bits capacity) position = contains bits position
  contains_grow_of_le : forall bits capacity position, length bits ≤ position ->
    contains (grow bits capacity) position = false
  put_fst : forall bits position inBounds,
    (put bits position inBounds).1 = contains bits position
  contains_put_snd : forall bits position inBounds other,
    contains (put bits position inBounds).2 other =
      (decide (other = position) || contains bits other)
  isClear_iff : forall bits,
    isClear bits = true ↔ forall position, contains bits position = false
  countOnes_eq : forall bits,
    countOnes bits = (List.range (length bits)).countP (contains bits)
  ones_ascending : forall bits, (ones bits).Pairwise (· < ·)
  mem_ones : forall bits position, position ∈ ones bits ↔ contains bits position = true
  contains_unionWith : forall first second position, length second ≤ length first ->
    contains (unionWith first second) position =
      (contains first position || contains second position)
  mem_intersection : forall first second position, position ∈ intersection first second ↔
    contains first position = true ∧ contains second position = true

namespace GrowableBits

variable {Bits : Type u} [GrowableBits Bits]

/-! ## Growing when there is need -/

/-- The vector with room for `size` bits.  It grows only if it is too short. -/
def growTo (bits : Bits) (size : Nat) : Bits :=
  if length bits < size then grow bits size else bits

theorem le_length_growTo (bits : Bits) (size : Nat) : size ≤ length (growTo bits size) := by
  unfold growTo
  split
  · exact le_length_grow bits size
  · next longEnough => exact Nat.not_lt.mp longEnough

theorem contains_eq_false_of_length_le {bits : Bits} {position : Nat}
    (outside : length bits ≤ position) : contains bits position = false := by
  rw [Bool.eq_false_iff]
  intro on
  exact absurd (lt_length_of_contains bits position on) (Nat.not_lt.mpr outside)

@[simp]
theorem contains_grow (bits : Bits) (capacity position : Nat) :
    contains (grow bits capacity) position = contains bits position := by
  by_cases inside : position < length bits
  · exact contains_grow_of_lt bits capacity position inside
  · have outside := Nat.not_lt.mp inside
    rw [contains_grow_of_le bits capacity position outside,
      contains_eq_false_of_length_le outside]

@[simp]
theorem contains_growTo (bits : Bits) (size position : Nat) :
    contains (growTo bits size) position = contains bits position := by
  unfold growTo
  split
  · exact contains_grow bits size position
  · rfl

/-! ## Counting -/

/-- A search from the front comes upon the positions that are on in the order in which they
are listed. -/
theorem ones_eq_filter_range (bits : Bits) :
    ones bits = (List.range (length bits)).filter (contains bits) := by
  apply SortedSet.eq_filter_range (ones_ascending bits)
  intro position
  rw [mem_ones]
  exact ⟨fun on => ⟨lt_length_of_contains bits position on, on⟩, fun found => found.2⟩

theorem countOnes_eq_length_ones (bits : Bits) : countOnes bits = (ones bits).length := by
  rw [countOnes_eq, ones_eq_filter_range, List.countP_eq_length_filter]

end GrowableBits

/-! ## Sparse vectors -/

/-- A vector of bits that stores which of its positions are on. -/
structure SparseBits where
  length : Nat
  ones : SortedSet Nat
  lt_length : forall position, position ∈ ones -> position < length

namespace SparseBits

def withCapacity (capacity : Nat) : SparseBits where
  length := capacity
  ones := ∅
  lt_length := fun position member => absurd member (SortedSet.not_mem_empty position)

def grow (bits : SparseBits) (capacity : Nat) : SparseBits where
  length := max bits.length capacity
  ones := bits.ones
  lt_length := fun position member =>
    Nat.lt_of_lt_of_le (bits.lt_length position member) (Nat.le_max_left _ _)

def put (bits : SparseBits) (position : Nat) (inBounds : position < bits.length) :
    Bool × SparseBits :=
  (bits.ones.contains position,
    { length := bits.length
      ones := bits.ones.insert position
      lt_length := by
        intro other member
        rcases SortedSet.mem_insert.mp member with equal | before
        · exact equal ▸ inBounds
        · exact bits.lt_length other before })

/-- The vector that is on where one of two vectors is.  It is as long as the longer one. -/
def unionWith (first second : SparseBits) : SparseBits where
  length := max first.length second.length
  ones := first.ones ∪ second.ones
  lt_length := by
    intro position member
    rcases SortedSet.mem_union.mp member with inFirst | inSecond
    · exact Nat.lt_of_lt_of_le (first.lt_length position inFirst) (Nat.le_max_left _ _)
    · exact Nat.lt_of_lt_of_le (second.lt_length position inSecond) (Nat.le_max_right _ _)

theorem size_ones (bits : SparseBits) :
    bits.ones.size = (List.range bits.length).countP bits.ones.contains := by
  rw [List.countP_eq_length_filter]
  apply congrArg List.length
  apply SortedSet.eq_filter_range bits.ones.ascending
  intro position
  rw [SortedSet.contains_eq_true, SortedSet.mem_toList]
  exact ⟨fun member => ⟨bits.lt_length position member, member⟩, fun found => found.2⟩

instance : GrowableBits SparseBits where
  withCapacity := withCapacity
  length := length
  grow := grow
  contains := fun bits position => bits.ones.contains position
  put := put
  isClear := fun bits => bits.ones.isEmpty
  countOnes := fun bits => bits.ones.size
  ones := fun bits => bits.ones.toList
  unionWith := unionWith
  intersection := fun first second => first.ones.toList.filter second.ones.contains
  contains_withCapacity := by
    intro capacity position
    exact SortedSet.contains_eq_false.mpr (SortedSet.not_mem_empty position)
  lt_length_of_contains := by
    intro bits position on
    exact bits.lt_length position (SortedSet.contains_eq_true.mp on)
  le_length_grow := fun bits capacity => Nat.le_max_right _ _
  contains_grow_of_lt := fun _ _ _ _ => rfl
  contains_grow_of_le := by
    intro bits capacity position outside
    rw [SortedSet.contains_eq_false]
    intro member
    exact absurd (bits.lt_length position member) (Nat.not_lt.mpr outside)
  put_fst := fun _ _ _ => rfl
  contains_put_snd := by
    intro bits position inBounds other
    rw [Bool.eq_iff_iff]
    simp [put]
  isClear_iff := by
    intro bits
    simp only [SortedSet.isEmpty_eq_true, SortedSet.contains_eq_false]
  countOnes_eq := size_ones
  ones_ascending := fun bits => bits.ones.ascending
  mem_ones := by
    intro bits position
    rw [SortedSet.contains_eq_true, SortedSet.mem_toList]
  contains_unionWith := by
    intro first second position _
    rw [Bool.eq_iff_iff]
    simp [unionWith]
  mem_intersection := by
    intro first second position
    simp

end SparseBits

end FiniteAutomata
