import FiniteAutomata.Nfa.Basic
import FiniteAutomata.Pattern.Rendering
import FiniteAutomata.StateSupply

namespace FiniteAutomata
namespace Thompson

/-!
# Assembling an automaton from the parts of a pattern

Every part of a pattern is made into a fragment of one growing automaton. A
fragment has a single start and some accepting states; larger fragments are made
by adding free moves between smaller ones. All states come from one supply, so
different parts never share a state, and no move ever leads into the start of the
fragment that is returned. That is why a repetition gets a start of its own.
-/

/-- What a state is for in the fragment that it was made for. -/
inductive Role where
  | start
  | accept
  deriving DecidableEq, Repr, Inhabited

def Role.text : Role -> String
  | start => "start"
  | accept => "accept"

/-- What a state was made for. -/
structure Origin where
  pattern : Pattern
  role : Role
  deriving DecidableEq, Repr, Inhabited

/-- The written form of the part between slashes, followed by the role. -/
def Origin.label (origin : Origin) : String :=
  "/" ++ origin.pattern.render ++ "/ " ++ origin.role.text

/-- A part of the automaton that reads the words of a part of the pattern. -/
structure Fragment where
  start : StateId
  accepting : List StateId
  deriving DecidableEq, Repr, Inhabited

/-- The automaton as far as it has been assembled.  States are recorded as they are taken from
the supply, so a state has an entry exactly if it has been handed out. -/
structure Assembly where
  /-- The states that have not been used yet. -/
  supply : StateSupply
  /-- The moves, in the order in which they were added. -/
  moves : List Move
  /-- What each state was made for, in the order in which they were made. -/
  origins : List (StateId × Origin)
  /-- The entries are numbered by their places. -/
  recorded : origins.map Prod.fst = (List.range origins.length).map UInt32.ofNat
  /-- The next state is the one after the last that is recorded. -/
  next_eq : supply.next = UInt32.ofNat origins.length
  deriving DecidableEq

namespace Assembly

/-- Nothing has been assembled, and all states are left. -/
instance : EmptyCollection Assembly := ⟨⟨{}, [], [], rfl, rfl⟩⟩

instance : Inhabited Assembly := ⟨{}⟩

/-- Takes the next state and records what it is for.  As long as the numbers suffice it has no
entry yet, so that none is replaced. -/
def addState (assembly : Assembly) (origin : Origin) : StateId × Assembly :=
  (assembly.supply.fresh.1,
    { supply := assembly.supply.fresh.2
      moves := assembly.moves
      origins := assembly.origins ++ [(assembly.supply.fresh.1, origin)]
      recorded := by
        rw [List.length_append, List.length_singleton, List.range_succ, List.map_append,
          List.map_append, assembly.recorded]
        exact congrArg (_ ++ [·]) assembly.next_eq
      next_eq := by
        rw [List.length_append, List.length_singleton, UInt32.ofNat_add, ← assembly.next_eq]
        rfl })

def addMoves (assembly : Assembly) (moves : List Move) : Assembly :=
  { assembly with moves := assembly.moves ++ moves }

end Assembly

/-- Adds the fragment of a pattern. Fragments of the parts are added before the
states and moves of the whole.

* A sequence leads from every accepting state of the first part to the start of
  the second.
* A choice has a new start that leads to the starts of both parts.
* A repetition has a new start that leads to the start of its body, and so does
  every accepting state of the body. Both starts accept as well, so that the
  empty word is matched. -/
def assemble : Pattern -> Assembly -> Fragment × Assembly
  | .empty, assembly =>
    let (start, assembly) := assembly.addState ⟨.empty, .start⟩
    (⟨start, [start]⟩, assembly)
  | .literal character, assembly =>
    let (start, assembly) := assembly.addState ⟨.literal character, .start⟩
    let (accept, assembly) := assembly.addState ⟨.literal character, .accept⟩
    (⟨start, [accept]⟩, assembly.addMoves [.reading start character accept])
  | .concat first second, assembly =>
    let (first, assembly) := assemble first assembly
    let (second, assembly) := assemble second assembly
    (⟨first.start, second.accepting⟩,
      assembly.addMoves (first.accepting.map fun state => .free state second.start))
  | .choice first second, assembly =>
    let origin := ⟨.choice first second, .start⟩
    let (first, assembly) := assemble first assembly
    let (second, assembly) := assemble second assembly
    let (start, assembly) := assembly.addState origin
    (⟨start, first.accepting ++ second.accepting⟩,
      assembly.addMoves [.free start first.start, .free start second.start])
  | .star inner, assembly =>
    let origin := ⟨.star inner, .start⟩
    let (inner, assembly) := assemble inner assembly
    let (start, assembly) := assembly.addState origin
    (⟨start, start :: inner.start :: inner.accepting⟩,
      assembly.addMoves
        (.free start inner.start ::
          inner.accepting.map fun state => .free state inner.start))

end Thompson
end FiniteAutomata
