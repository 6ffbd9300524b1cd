import FiniteAutomata.BitSet.GrowableBits
import FiniteAutomata.StateSet

namespace FiniteAutomata

universe u v

/-!
# Sets of states as growable vectors of bits

A `BitSet` marks its members in a vector of bits, which grows when it has to.  How long the
vector is depends on how the set was made.  Equality, order and hashing go by the members
alone, in ascending order, so that the length makes no difference to them.

One lemma for each operation says which states belong to its result, and
`BitSet.toSortedSet` forgets the vector.
-/

/-- A set of states, whose members are the positions that are on. -/
structure BitSet (Bits : Type u) [GrowableBits Bits] where
  bits : Bits
  isState : forall position,
    GrowableBits.contains bits position = true -> position < UInt32.size

/-- What can be fed to a hasher, by how it changes what the hasher has come to. -/
structure Hasher (Digest : Type v) where
  writeSize : Digest -> Nat -> Digest
  writeState : Digest -> StateId -> Digest

namespace BitSet

variable {Bits : Type u} [GrowableBits Bits]

instance : Membership StateId (BitSet Bits) :=
  ⟨fun set state => GrowableBits.contains set.bits state.toNat = true⟩

theorem mem_def {state : StateId} {set : BitSet Bits} :
    state ∈ set ↔ GrowableBits.contains set.bits state.toNat = true :=
  Iff.rfl

/-! ## Making sets -/

/-- The empty set with room for as many states as are asked for. -/
def emptyWithCapacity (capacity : Nat) : BitSet Bits where
  bits := GrowableBits.withCapacity capacity
  isState := by
    intro position on
    rw [GrowableBits.contains_withCapacity] at on
    cases on

def empty : BitSet Bits := emptyWithCapacity 0

/-- Adds a state, for which the vector grows if it has to, and says whether it was new. -/
def insertNew (set : BitSet Bits) (state : StateId) : Bool × BitSet Bits :=
  let inBounds := GrowableBits.le_length_growTo set.bits (state.toNat + 1)
  let put := GrowableBits.put (GrowableBits.growTo set.bits (state.toNat + 1)) state.toNat inBounds
  (!put.1,
    { bits := put.2
      isState := by
        intro position on
        rw [GrowableBits.contains_put_snd, GrowableBits.contains_growTo, Bool.or_eq_true,
          decide_eq_true_eq] at on
        rcases on with rfl | before
        · exact state.toNat_lt
        · exact set.isState position before })

/-- The set with all of `states` added, in the order given. -/
def insertMany (set : BitSet Bits) (states : List StateId) : BitSet Bits :=
  states.foldl (fun set state => (set.insertNew state).2) set

def ofList (states : List StateId) : BitSet Bits := insertMany empty states

def singleton (state : StateId) : BitSet Bits :=
  ((emptyWithCapacity (state.toNat + 1)).insertNew state).2

/-- The union of two sets, in the vector of the first.  This grows if the other vector is
longer. -/
def union (first second : BitSet Bits) : BitSet Bits where
  bits := GrowableBits.unionWith
    (GrowableBits.growTo first.bits (GrowableBits.length second.bits)) second.bits
  isState := by
    intro position on
    rw [GrowableBits.contains_unionWith _ _ _ (GrowableBits.le_length_growTo _ _),
      GrowableBits.contains_growTo, Bool.or_eq_true] at on
    rcases on with inFirst | inSecond
    · exact first.isState position inFirst
    · exact second.isState position inSecond

/-! ## Looking at sets -/

def contains (set : BitSet Bits) (state : StateId) : Bool :=
  GrowableBits.contains set.bits state.toNat

def isEmpty (set : BitSet Bits) : Bool := GrowableBits.isClear set.bits

def size (set : BitSet Bits) : Nat := GrowableBits.countOnes set.bits

/-- The members, in ascending order. -/
def toList (set : BitSet Bits) : List StateId :=
  (GrowableBits.ones set.bits).map UInt32.ofNat

def intersects (first second : BitSet Bits) : Bool :=
  (GrowableBits.intersection first.bits second.bits).head?.isSome

/-- Whether every member of the first set belongs to the second. -/
def isSubset (first second : BitSet Bits) : Bool := first.toList.all second.contains

instance : BEq (BitSet Bits) := ⟨fun first second => first.toList == second.toList⟩

/-- The size is fed to the hasher first, and then every member. -/
def feed {Digest : Type v} (set : BitSet Bits) (hasher : Hasher Digest) (digest : Digest) :
    Digest :=
  set.toList.foldl hasher.writeState (hasher.writeSize digest set.size)

instance : Ord (BitSet Bits) :=
  ⟨fun first second => List.compareLex compare first.toList second.toList⟩

/-! ## Membership -/

@[simp]
theorem not_mem_emptyWithCapacity (capacity : Nat) (state : StateId) :
    ¬ state ∈ (emptyWithCapacity capacity : BitSet Bits) := by
  simp [mem_def, emptyWithCapacity, GrowableBits.contains_withCapacity]

@[simp]
theorem not_mem_empty (state : StateId) : ¬ state ∈ (empty : BitSet Bits) :=
  not_mem_emptyWithCapacity 0 state

@[simp]
theorem mem_insertNew {set : BitSet Bits} {state other : StateId} :
    other ∈ (set.insertNew state).2 ↔ other = state ∨ other ∈ set := by
  simp [mem_def, insertNew, GrowableBits.contains_put_snd, UInt32.toNat_inj]

theorem insertNew_fst {set : BitSet Bits} {state : StateId} :
    (set.insertNew state).1 = true ↔ ¬ state ∈ set := by
  simp [mem_def, insertNew, GrowableBits.put_fst]

@[simp]
theorem mem_insertMany {set : BitSet Bits} {states : List StateId} {other : StateId} :
    other ∈ set.insertMany states ↔ other ∈ set ∨ other ∈ states :=
  mem_foldl_insert (fun _ _ _ => mem_insertNew)

@[simp]
theorem mem_ofList {states : List StateId} {other : StateId} :
    other ∈ (ofList states : BitSet Bits) ↔ other ∈ states := by
  simp [ofList]

@[simp]
theorem mem_singleton {state other : StateId} :
    other ∈ (singleton state : BitSet Bits) ↔ other = state := by
  simp [singleton]

@[simp]
theorem mem_union {first second : BitSet Bits} {other : StateId} :
    other ∈ first.union second ↔ other ∈ first ∨ other ∈ second := by
  have longEnough := GrowableBits.le_length_growTo first.bits (GrowableBits.length second.bits)
  simp [mem_def, union, GrowableBits.contains_unionWith _ _ _ longEnough]

/-! ## Members in order -/

/-- A position that is on is not changed by being made the number of a state. -/
theorem toNat_ofNat_of_on {set : BitSet Bits} {position : Nat}
    (on : GrowableBits.contains set.bits position = true) :
    (UInt32.ofNat position).toNat = position :=
  UInt32.toNat_ofNat_of_lt' (set.isState position on)

@[simp]
theorem mem_toList {set : BitSet Bits} {state : StateId} : state ∈ set.toList ↔ state ∈ set := by
  simp only [toList, List.mem_map, GrowableBits.mem_ones, mem_def]
  constructor
  · rintro ⟨position, on, rfl⟩
    rw [toNat_ofNat_of_on on]
    exact on
  · intro on
    exact ⟨state.toNat, on, UInt32.ofNat_toNat⟩

theorem toList_ascending (set : BitSet Bits) : set.toList.Pairwise (· < ·) := by
  rw [toList, List.pairwise_map]
  refine (GrowableBits.ones_ascending set.bits).imp_of_mem ?_
  intro first second firstListed secondListed below
  rw [GrowableBits.mem_ones] at firstListed secondListed
  rw [UInt32.lt_iff_toNat_lt, toNat_ofNat_of_on firstListed, toNat_ofNat_of_on secondListed]
  exact below

theorem size_eq_length_toList (set : BitSet Bits) : set.size = set.toList.length := by
  rw [size, GrowableBits.countOnes_eq_length_ones, toList, List.length_map]

/-- The members alone. -/
def toSortedSet (set : BitSet Bits) : StateSet := ⟨set.toList, set.toList_ascending⟩

@[simp]
theorem mem_toSortedSet {set : BitSet Bits} {state : StateId} :
    state ∈ set.toSortedSet ↔ state ∈ set :=
  mem_toList

theorem toList_eq_iff {first second : BitSet Bits} :
    first.toList = second.toList ↔ forall state, state ∈ first ↔ state ∈ second := by
  constructor
  · intro same state
    rw [← mem_toList, same, mem_toList]
  · intro same
    have equal : first.toSortedSet = second.toSortedSet := by
      ext state
      rw [mem_toSortedSet, mem_toSortedSet]
      exact same state
    exact congrArg SortedSet.toList equal

end BitSet

end FiniteAutomata
