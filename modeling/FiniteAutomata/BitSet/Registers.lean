import FiniteAutomata.BitSet.Basic

namespace FiniteAutomata

universe u

/-!
# Registers that hold sets of states

Sets of states are made by a handful of operations, and several ways to keep a set offer
them (`SetOperations`).  What the operations have to do is said by what belongs to their
results (`LawfulSetOperations`).

A program is a list of instructions, each of which makes a set in a new register or changes
one of the registers there are.  Since a program says nothing about how the sets are kept, it
can be run with any of the ways.
-/

/-- The operations by which sets of states are made. -/
class SetOperations (Sets : Type u) where
  empty : Sets
  emptyWithCapacity : Nat -> Sets
  singleton : StateId -> Sets
  ofList : List StateId -> Sets
  /-- Adds a state and says whether it was new. -/
  insertNew : Sets -> StateId -> Bool × Sets
  insertMany : Sets -> List StateId -> Sets
  union : Sets -> Sets -> Sets

/-- What belongs to the sets that the operations make. -/
class LawfulSetOperations (Sets : Type u) [SetOperations Sets] [Membership StateId Sets] :
    Prop where
  not_mem_empty : forall state, ¬ state ∈ (SetOperations.empty : Sets)
  not_mem_emptyWithCapacity : forall capacity state,
    ¬ state ∈ (SetOperations.emptyWithCapacity capacity : Sets)
  mem_singleton : forall state other,
    other ∈ (SetOperations.singleton state : Sets) ↔ other = state
  mem_ofList : forall states other,
    other ∈ (SetOperations.ofList states : Sets) ↔ other ∈ states
  insertNew_fst : forall (set : Sets) state,
    (SetOperations.insertNew set state).1 = true ↔ ¬ state ∈ set
  mem_insertNew : forall (set : Sets) state other,
    other ∈ (SetOperations.insertNew set state).2 ↔ other = state ∨ other ∈ set
  mem_insertMany : forall (set : Sets) states other,
    other ∈ SetOperations.insertMany set states ↔ other ∈ set ∨ other ∈ states
  mem_union : forall (first second : Sets) other,
    other ∈ SetOperations.union first second ↔ other ∈ first ∨ other ∈ second

instance : SetOperations StateSet where
  empty := SortedSet.empty
  emptyWithCapacity := SortedSet.emptyWithCapacity
  singleton := SortedSet.singleton
  ofList := SortedSet.ofList
  insertNew := SortedSet.insertNew
  insertMany := SortedSet.insertMany
  union := SortedSet.union

instance : LawfulSetOperations StateSet where
  not_mem_empty := SortedSet.not_mem_empty
  not_mem_emptyWithCapacity := fun _ => SortedSet.not_mem_empty
  mem_singleton := fun _ _ => SortedSet.mem_singleton
  mem_ofList := fun _ _ => SortedSet.mem_ofList
  insertNew_fst := by
    intro set state
    simp [SetOperations.insertNew, SortedSet.insertNew, SortedSet.contains]
  mem_insertNew := fun _ _ _ => SortedSet.mem_insert
  mem_insertMany := fun _ _ _ => SortedSet.mem_insertMany
  mem_union := fun _ _ _ => SortedSet.mem_union

instance {Bits : Type u} [GrowableBits Bits] : SetOperations (BitSet Bits) where
  empty := BitSet.empty
  emptyWithCapacity := BitSet.emptyWithCapacity
  singleton := BitSet.singleton
  ofList := BitSet.ofList
  insertNew := BitSet.insertNew
  insertMany := BitSet.insertMany
  union := BitSet.union

instance {Bits : Type u} [GrowableBits Bits] : LawfulSetOperations (BitSet Bits) where
  not_mem_empty := BitSet.not_mem_empty
  not_mem_emptyWithCapacity := BitSet.not_mem_emptyWithCapacity
  mem_singleton := fun _ _ => BitSet.mem_singleton
  mem_ofList := fun _ _ => BitSet.mem_ofList
  insertNew_fst := fun _ _ => BitSet.insertNew_fst
  mem_insertNew := fun _ _ _ => BitSet.mem_insertNew
  mem_insertMany := fun _ _ _ => BitSet.mem_insertMany
  mem_union := fun _ _ _ => BitSet.mem_union

/-- An operation on registers, which are called by their places.  The first five append a
register, and the others change the register that is called first. -/
inductive Instruction
  | new
  | withCapacity (capacity : Nat)
  | singleton (state : StateId)
  | ofList (states : List StateId)
  | clone (register : Nat)
  | insert (register : Nat) (state : StateId)
  | extend (register : Nat) (states : List StateId)
  | union (register other : Nat)
deriving DecidableEq, Repr

namespace Instruction

/-- The registers that an instruction calls. -/
def calls : Instruction -> List Nat
  | new | withCapacity _ | singleton _ | ofList _ => []
  | clone register | insert register _ | extend register _ => [register]
  | union register other => [register, other]

/-- How many registers there are after an instruction, if there are `count` before it. -/
def countAfter (count : Nat) : Instruction -> Nat
  | new | withCapacity _ | singleton _ | ofList _ | clone _ => count + 1
  | insert _ _ | extend _ _ | union _ _ => count

/-- Every instruction calls registers only that exist by then, if there are `count` at the
beginning. -/
def CallsExisting (count : Nat) : List Instruction -> Prop
  | [] => True
  | instruction :: rest =>
    (forall register, register ∈ instruction.calls -> register < count) ∧
      CallsExisting (instruction.countAfter count) rest

end Instruction

/-- The sets that a program has made. -/
structure Registers (Sets : Type u) where
  contents : List Sets
  /-- What the insertions have answered, from the first to the last. -/
  answers : List Bool
deriving DecidableEq

namespace Registers

variable {Sets : Type u}

def empty : Registers Sets := ⟨[], []⟩

/-- The registers with another one at the end. -/
def append (registers : Registers Sets) (set : Sets) : Registers Sets :=
  { registers with contents := registers.contents ++ [set] }

/-- The registers with another set in one of them. -/
def replace (registers : Registers Sets) (register : Nat) (set : Sets) : Registers Sets :=
  { registers with contents := registers.contents.set register set }

/-- The registers after an insertion, which has answered and has made a set. -/
def inserted (registers : Registers Sets) (register : Nat) (result : Bool × Sets) :
    Registers Sets :=
  { registers.replace register result.2 with answers := registers.answers ++ [result.1] }

variable [SetOperations Sets]

/-- Executes an instruction, unless it calls a register that does not exist. -/
def step? (registers : Registers Sets) : Instruction -> Option (Registers Sets)
  | .new => some (registers.append SetOperations.empty)
  | .withCapacity capacity => some (registers.append (SetOperations.emptyWithCapacity capacity))
  | .singleton state => some (registers.append (SetOperations.singleton state))
  | .ofList states => some (registers.append (SetOperations.ofList states))
  | .clone register => registers.contents[register]?.map registers.append
  | .insert register state => registers.contents[register]?.map fun set =>
      registers.inserted register (SetOperations.insertNew set state)
  | .extend register states => registers.contents[register]?.map fun set =>
      registers.replace register (SetOperations.insertMany set states)
  | .union register other => registers.contents[register]?.bind fun first =>
      registers.contents[other]?.map fun second =>
        registers.replace register (SetOperations.union first second)

/-- Executes the instructions of a program one after the other. -/
def run? (registers : Registers Sets) (program : List Instruction) :
    Option (Registers Sets) :=
  program.foldlM step? registers

@[simp]
theorem run?_nil (registers : Registers Sets) : registers.run? [] = some registers :=
  rfl

@[simp]
theorem run?_cons (registers : Registers Sets) (instruction : Instruction)
    (rest : List Instruction) :
    registers.run? (instruction :: rest) =
      (registers.step? instruction).bind fun next => next.run? rest :=
  rfl

end Registers

end FiniteAutomata
