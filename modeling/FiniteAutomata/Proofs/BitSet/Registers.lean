import FiniteAutomata.BitSet.Registers
import FiniteAutomata.Proofs.BitSet.Members
import Mathlib.Data.Finset.Lattice.Basic

namespace FiniteAutomata

universe u v w

/-!
# Programs make the same sets however these are kept

If a function from one kind of sets to another goes along with every operation
(`Commutes`), it goes along with every instruction and so with every program
(`Registers.map_run?`).  A function that keeps the members does, if the sets of the other
kind are determined by their members.  To take the members of a `BitSet` is such a function,
so a program makes of bit sets what it makes of finite sets.
-/

/-- The operations on finite sets. -/
instance : SetOperations (Finset StateId) where
  empty := ∅
  emptyWithCapacity := fun _ => ∅
  singleton := fun state => {state}
  ofList := fun states => states.toFinset
  insertNew := fun set state => (decide (state ∉ set), insert state set)
  insertMany := fun set states => set ∪ states.toFinset
  union := fun first second => first ∪ second

instance : LawfulSetOperations (Finset StateId) where
  not_mem_empty := Finset.notMem_empty
  not_mem_emptyWithCapacity := fun _ => Finset.notMem_empty
  mem_singleton := fun _ _ => Finset.mem_singleton
  mem_ofList := fun _ _ => List.mem_toFinset
  insertNew_fst := fun _ _ => decide_eq_true_iff
  mem_insertNew := fun _ _ _ => Finset.mem_insert
  mem_insertMany := fun _ _ _ => Finset.mem_union.trans (or_congr_right List.mem_toFinset)
  mem_union := fun _ _ _ => Finset.mem_union

/-! ## Functions that go along with the operations -/

section Commuting

variable {Sets : Type u} {Others : Type v} [SetOperations Sets] [SetOperations Others]

/-- What it means that a function from one kind of sets to another goes along with every
operation. -/
structure Commutes (forget : Sets -> Others) : Prop where
  empty : forget SetOperations.empty = SetOperations.empty
  emptyWithCapacity : forall capacity,
    forget (SetOperations.emptyWithCapacity capacity) = SetOperations.emptyWithCapacity capacity
  singleton : forall state,
    forget (SetOperations.singleton state) = SetOperations.singleton state
  ofList : forall states, forget (SetOperations.ofList states) = SetOperations.ofList states
  insertNew : forall set state,
    Prod.map id forget (SetOperations.insertNew set state) =
      SetOperations.insertNew (forget set) state
  insertMany : forall set states,
    forget (SetOperations.insertMany set states) = SetOperations.insertMany (forget set) states
  union : forall first second,
    forget (SetOperations.union first second) =
      SetOperations.union (forget first) (forget second)

/-- A function that keeps the members goes along with every operation. -/
theorem commutes_of_mem_iff [Membership StateId Sets] [Membership StateId Others]
    [LawfulSetOperations Sets] [LawfulSetOperations Others] {forget : Sets -> Others}
    (mem_forget : forall set state, state ∈ forget set ↔ state ∈ set)
    (extensional : forall first second : Others,
      (forall state, state ∈ first ↔ state ∈ second) -> first = second) :
    Commutes forget where
  empty := by
    apply extensional
    intro state
    simp [mem_forget, LawfulSetOperations.not_mem_empty]
  emptyWithCapacity := by
    intro capacity
    apply extensional
    intro state
    simp [mem_forget, LawfulSetOperations.not_mem_emptyWithCapacity]
  singleton := by
    intro state
    apply extensional
    intro other
    simp only [mem_forget, LawfulSetOperations.mem_singleton]
  ofList := by
    intro states
    apply extensional
    intro other
    simp only [mem_forget, LawfulSetOperations.mem_ofList]
  insertNew := by
    intro set state
    refine Prod.ext ?_ (extensional _ _ fun other => ?_)
    · rw [Bool.eq_iff_iff]
      simp only [Prod.map_fst, id_eq, LawfulSetOperations.insertNew_fst, mem_forget]
    · simp only [Prod.map_snd, mem_forget, LawfulSetOperations.mem_insertNew]
  insertMany := by
    intro set states
    apply extensional
    intro other
    simp only [mem_forget, LawfulSetOperations.mem_insertMany]
  union := by
    intro first second
    apply extensional
    intro other
    simp only [mem_forget, LawfulSetOperations.mem_union]

end Commuting

namespace Registers

variable {Sets : Type u} {Others : Type v}

/-- The registers with a function applied to every set. -/
def map (function : Sets -> Others) (registers : Registers Sets) : Registers Others where
  contents := registers.contents.map function
  answers := registers.answers

@[simp]
theorem map_empty (function : Sets -> Others) : (empty : Registers Sets).map function = empty :=
  rfl

@[simp]
theorem getElem?_contents_map (function : Sets -> Others) (registers : Registers Sets)
    (register : Nat) :
    (registers.map function).contents[register]? = registers.contents[register]?.map function :=
  List.getElem?_map

@[simp]
theorem map_append (function : Sets -> Others) (registers : Registers Sets) (set : Sets) :
    (registers.append set).map function = (registers.map function).append (function set) := by
  simp [map, append]

@[simp]
theorem map_replace (function : Sets -> Others) (registers : Registers Sets) (register : Nat)
    (set : Sets) :
    (registers.replace register set).map function =
      (registers.map function).replace register (function set) := by
  simp [map, replace]

@[simp]
theorem map_inserted (function : Sets -> Others) (registers : Registers Sets) (register : Nat)
    (result : Bool × Sets) :
    (registers.inserted register result).map function =
      (registers.map function).inserted register (Prod.map id function result) := by
  simp [map, inserted, replace]

variable [SetOperations Sets] [SetOperations Others] {forget : Sets -> Others}

/-- A function that goes along with the operations goes along with an instruction. -/
theorem map_step? (commutes : Commutes forget) (registers : Registers Sets)
    (instruction : Instruction) :
    (registers.step? instruction).map (map forget) = (registers.map forget).step? instruction := by
  cases instruction with
  | new => simp [step?, commutes.empty]
  | withCapacity capacity => simp [step?, commutes.emptyWithCapacity]
  | singleton state => simp [step?, commutes.singleton]
  | ofList states => simp [step?, commutes.ofList]
  | clone register => cases called : registers.contents[register]? <;> simp [step?, called]
  | insert register state =>
    cases called : registers.contents[register]? <;> simp [step?, called, commutes.insertNew]
  | extend register states =>
    cases called : registers.contents[register]? <;> simp [step?, called, commutes.insertMany]
  | union register other =>
    cases called : registers.contents[register]? <;>
      cases alsoCalled : registers.contents[other]? <;>
        simp [step?, called, alsoCalled, commutes.union]

/-- A function that goes along with the operations goes along with a program. -/
theorem map_run? (commutes : Commutes forget) (registers : Registers Sets)
    (program : List Instruction) :
    (registers.run? program).map (map forget) = (registers.map forget).run? program := by
  induction program generalizing registers with
  | nil => rfl
  | cons instruction rest inductionHypothesis =>
    rw [run?_cons, run?_cons, ← map_step? commutes, Option.map_bind, Option.bind_map]
    apply Option.bind_congr
    intro next _
    exact inductionHypothesis next

/-! ## Programs that can be executed -/

/-- An instruction is executed exactly if the registers that it calls exist. -/
theorem isSome_step?_iff (registers : Registers Sets) (instruction : Instruction) :
    (registers.step? instruction).isSome = true ↔
      forall register, register ∈ instruction.calls -> register < registers.contents.length := by
  cases instruction with
  | new | withCapacity | singleton | ofList => simp [step?, Instruction.calls]
  | clone | insert | extend => simp [step?, Instruction.calls]
  | union register other =>
    cases called : registers.contents[register]? with
    | none =>
      have outside := List.getElem?_eq_none_iff.mp called
      simp [step?, Instruction.calls, Nat.not_lt.mpr outside]
    | some set =>
      have inside := (List.getElem?_eq_some_iff.mp called).1
      simp [step?, Instruction.calls, inside]

theorem length_contents_of_step? {registers next : Registers Sets} {instruction : Instruction}
    (executed : registers.step? instruction = some next) :
    next.contents.length = instruction.countAfter registers.contents.length := by
  cases instruction with
  | new | withCapacity | singleton | ofList =>
    cases executed
    exact List.length_append
  | clone =>
    obtain ⟨set, -, rfl⟩ := Option.map_eq_some_iff.mp executed
    exact List.length_append
  | insert | extend =>
    obtain ⟨set, -, rfl⟩ := Option.map_eq_some_iff.mp executed
    exact List.length_set
  | union =>
    obtain ⟨first, -, executed⟩ := Option.bind_eq_some_iff.mp executed
    obtain ⟨second, -, rfl⟩ := Option.map_eq_some_iff.mp executed
    exact List.length_set

/-- A program is executed exactly if it calls registers only that exist by then. -/
theorem isSome_run?_iff (registers : Registers Sets) (program : List Instruction) :
    (registers.run? program).isSome = true ↔
      Instruction.CallsExisting registers.contents.length program := by
  induction program generalizing registers with
  | nil => simp [Instruction.CallsExisting]
  | cons instruction rest inductionHypothesis =>
    rw [run?_cons, Instruction.CallsExisting, ← isSome_step?_iff]
    cases executed : registers.step? instruction with
    | none => simp
    | some next => simp [inductionHypothesis, length_contents_of_step? executed]

end Registers

/-! ## Bit sets -/

namespace BitSet

/-- What it means that bit sets are sets of states, whatever vectors of bits they are made
of.  Their vectors may have any lengths. -/
structure ActAsFiniteSets (Bits : Type u) [GrowableBits Bits] : Prop where
  /-- A program makes the same sets of bit sets as of finite sets, and all insertions
  answer the same. -/
  run?_eq : forall program : List Instruction,
    ((Registers.empty : Registers (BitSet Bits)).run? program).map (Registers.map members) =
      (Registers.empty : Registers (Finset StateId)).run? program
  /-- The sets with which automata run are made the same, too. -/
  run?_toSortedSet_eq : forall program : List Instruction,
    ((Registers.empty : Registers (BitSet Bits)).run? program).map (Registers.map toSortedSet) =
      (Registers.empty : Registers StateSet).run? program
  isSome_run?_iff : forall program : List Instruction,
    ((Registers.empty : Registers (BitSet Bits)).run? program).isSome = true ↔
      Instruction.CallsExisting 0 program
  insertNew_fst : forall (set : BitSet Bits) (state : StateId),
    (set.insertNew state).1 = true ↔ state ∉ set.members
  contains_iff : forall (set : BitSet Bits) (state : StateId),
    set.contains state = true ↔ state ∈ set.members
  isEmpty_iff : forall set : BitSet Bits, set.isEmpty = true ↔ set.members = ∅
  size_eq : forall set : BitSet Bits, set.size = set.members.card
  intersects_iff : forall first second : BitSet Bits,
    first.intersects second = true ↔ (first.members ∩ second.members).Nonempty
  isSubset_iff : forall first second : BitSet Bits,
    first.isSubset second = true ↔ first.members ⊆ second.members
  /-- The list of a set is the ascending list of its members. -/
  toList_ascending : forall set : BitSet Bits, set.toList.Pairwise (· < ·)
  mem_toList : forall (set : BitSet Bits) (state : StateId),
    state ∈ set.toList ↔ state ∈ set.members
  beq_iff : forall first second : BitSet Bits,
    (first == second) = true ↔ first.members = second.members
  /-- Equal sets feed a hasher the same, whatever the hasher makes of it. -/
  feed_eq : forall first second : BitSet Bits, (first == second) = true ->
    forall (Digest : Type v) (hasher : Hasher Digest) (digest : Digest),
      first.feed hasher digest = second.feed hasher digest
  /-- The comparison is a total order, namely that of the ascending lists as entries of a
  dictionary. -/
  compare_swap : forall first second : BitSet Bits,
    compare first second = (compare second first).swap
  compare_isLE_trans : forall first second third : BitSet Bits,
    (compare first second).isLE = true -> (compare second third).isLE = true ->
      (compare first third).isLE = true
  compare_lt_iff : forall first second : BitSet Bits,
    compare first second = .lt ↔ first.toList < second.toList
  compare_eq_iff : forall first second : BitSet Bits,
    compare first second = .eq ↔ (first == second) = true

variable {Bits : Type u} [GrowableBits Bits]

theorem commutes_members : Commutes (members : BitSet Bits -> Finset StateId) :=
  commutes_of_mem_iff (fun _ _ => mem_members) fun _ _ => Finset.ext

theorem commutes_toSortedSet : Commutes (toSortedSet : BitSet Bits -> StateSet) :=
  commutes_of_mem_iff (fun _ _ => mem_toSortedSet) fun _ _ => SortedSet.ext

/-- Whatever vectors of bits are used, a set of states is the finite set of its members: the
operations make of it what they make of finite sets, and what is observed of it, such as its
equality and its order, is decided by the members. -/
theorem bitSets_act_as_finite_sets : ActAsFiniteSets.{u, v} Bits where
  run?_eq := Registers.map_run? commutes_members Registers.empty
  run?_toSortedSet_eq := Registers.map_run? commutes_toSortedSet Registers.empty
  isSome_run?_iff := Registers.isSome_run?_iff Registers.empty
  insertNew_fst := by
    intro set state
    rw [insertNew_fst, mem_members]
  contains_iff := by
    intro set state
    rw [contains_eq_true, mem_members]
  isEmpty_iff := by
    intro set
    rw [isEmpty_eq_true, Finset.eq_empty_iff_forall_notMem]
    simp only [mem_members]
  size_eq := size_eq_card
  intersects_iff := by
    intro first second
    rw [intersects_eq_true]
    simp only [Finset.Nonempty, Finset.mem_inter, mem_members]
  isSubset_iff := by
    intro first second
    rw [isSubset_eq_true]
    simp only [Finset.subset_iff, mem_members]
  toList_ascending := toList_ascending
  mem_toList := by
    intro set state
    rw [mem_toList, mem_members]
  beq_iff := fun _ _ => beq_iff_members_eq
  feed_eq := fun _ _ equal _ => feed_eq_of_beq equal
  compare_swap := fun _ _ => Std.OrientedCmp.eq_swap
  compare_isLE_trans := fun _ _ _ => Std.TransCmp.isLE_trans
  compare_lt_iff := fun _ _ => compare_eq_lt_iff
  compare_eq_iff := fun _ _ => compare_eq_eq_iff

/-- A program whose sets begin with different capacities and have to grow. -/
def growingProgram : List Instruction :=
  [.withCapacity 2, .insert 0 1, .withCapacity 256, .insert 1 1, .ofList [40, 3, 2],
    .union 0 2, .union 1 2, .insert 2 40]

theorem sparse_bitSets_act_as_finite_sets :
    ActAsFiniteSets.{0, 0} SparseBits ∧
      ((Registers.empty : Registers (BitSet SparseBits)).run? growingProgram).map
          (Registers.map toList) =
        some ⟨[[1, 2, 3, 40], [1, 2, 3, 40], [2, 3, 40]], [true, true, false]⟩ :=
  ⟨bitSets_act_as_finite_sets, by decide +kernel⟩

end BitSet

end FiniteAutomata
