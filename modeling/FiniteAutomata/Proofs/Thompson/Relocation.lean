import FiniteAutomata.Proofs.Thompson.Isolation
import FiniteAutomata.Renumbering

namespace FiniteAutomata
namespace Thompson

/-!
# Fragments can be moved

What is added for a pattern does not depend on what an assembly holds already, and on the
supply of states only in that all numbers begin with the next one.  So two assemblies grow
alike: as long as the next states are a certain distance apart, so are all states that the two
take for a pattern.  Compared with the empty assembly, every assembly therefore grows by the
fragment that is assembled from nothing, moved to its next state.
-/

/-- The fragment with all states further on. -/
def Fragment.shift (distance : StateId) (fragment : Fragment) : Fragment :=
  ⟨distance + fragment.start, fragment.accepting.map (distance + ·)⟩

/-! ## Two assemblies that grow alike -/

/-- Two assemblies have come to hold more: the second by what has been added to the first,
moved by the distance.  Their next states are that far apart. -/
structure GrowAlike (distance : StateId) (first second firstLater secondLater : Assembly) :
    Prop where
  moves : exists added, firstLater.moves = first.moves ++ added ∧
    secondLater.moves = second.moves ++ added.map (Transition.mapStates (distance + ·))
  origins : exists added, firstLater.origins = first.origins ++ added ∧
    secondLater.origins =
      second.origins ++ added.map fun made => (distance + made.1, made.2)
  next : secondLater.supply.next = distance + firstLater.supply.next

namespace GrowAlike

variable {distance : StateId} {first second firstLater secondLater firstLast secondLast : Assembly}

theorem trans (earlier : GrowAlike distance first second firstLater secondLater)
    (later : GrowAlike distance firstLater secondLater firstLast secondLast) :
    GrowAlike distance first second firstLast secondLast := by
  rcases earlier.moves with ⟨earlierMoves, firstMoves, secondMoves⟩
  rcases later.moves with ⟨laterMoves, firstMovesLater, secondMovesLater⟩
  rcases earlier.origins with ⟨earlierOrigins, firstOrigins, secondOrigins⟩
  rcases later.origins with ⟨laterOrigins, firstOriginsLater, secondOriginsLater⟩
  refine ⟨⟨earlierMoves ++ laterMoves, ?_, ?_⟩, ⟨earlierOrigins ++ laterOrigins, ?_, ?_⟩,
    later.next⟩
  · rw [firstMovesLater, firstMoves, List.append_assoc]
  · rw [secondMovesLater, secondMoves, List.append_assoc, List.map_append]
  · rw [firstOriginsLater, firstOrigins, List.append_assoc]
  · rw [secondOriginsLater, secondOrigins, List.append_assoc, List.map_append]

/-- Both take their next states for the same purpose. -/
theorem addState (alike : GrowAlike distance first second firstLater secondLater)
    (origin : Origin) :
    GrowAlike distance first second (firstLater.addState origin).2
      (secondLater.addState origin).2 := by
  refine alike.trans ⟨⟨[], ?_, ?_⟩, ⟨[(firstLater.supply.next, origin)], rfl, ?_⟩, ?_⟩
  · exact (List.append_nil _).symm
  · exact (List.append_nil _).symm
  · rw [List.map_singleton, ← alike.next]
    rfl
  · change secondLater.supply.next + 1 = distance + (firstLater.supply.next + 1)
    rw [alike.next, UInt32.add_assoc]

theorem addMoves (alike : GrowAlike distance first second firstLater secondLater)
    {firstMoves secondMoves : List Move}
    (moved : secondMoves = firstMoves.map (Transition.mapStates (distance + ·))) :
    GrowAlike distance first second (firstLater.addMoves firstMoves)
      (secondLater.addMoves secondMoves) := by
  rw [moved]
  exact alike.trans ⟨⟨firstMoves, rfl, rfl⟩,
    ⟨[], (List.append_nil _).symm, (List.append_nil _).symm⟩, alike.next⟩

/-- Nothing has been added yet. -/
theorem here (apart : second.supply.next = distance + first.supply.next) :
    GrowAlike distance first second first second :=
  ⟨⟨[], (List.append_nil _).symm, (List.append_nil _).symm⟩,
    ⟨[], (List.append_nil _).symm, (List.append_nil _).symm⟩, apart⟩

end GrowAlike

theorem bridges_shift (distance : StateId) (exits : List StateId) (entry : StateId) :
    ((exits.map (distance + ·)).map fun state => Transition.free state (distance + entry)) =
      (exits.map fun state => Transition.free state entry).map
        (Transition.mapStates (distance + ·)) := by
  rw [List.map_map, List.map_map]
  rfl

/-- For the same pattern two assemblies make the same fragment, moved by their distance, and
they grow alike. -/
theorem growAlike_assemble (pattern : Pattern) {distance : StateId} {first second : Assembly}
    (apart : second.supply.next = distance + first.supply.next) :
    (assemble pattern second).1 = (assemble pattern first).1.shift distance ∧
      GrowAlike distance first second (assemble pattern first).2 (assemble pattern second).2 := by
  induction pattern generalizing first second with
  | empty =>
    have alike := GrowAlike.here apart
    refine ⟨?_, alike.addState _⟩
    exact congrArg (fun state => Fragment.mk state [state]) alike.next
  | literal character =>
    have alike := GrowAlike.here apart
    have startAlike := alike.addState ⟨.literal character, .start⟩
    have start : second.supply.next = distance + first.supply.next := alike.next
    have accept : second.supply.next + 1 = distance + (first.supply.next + 1) := startAlike.next
    refine ⟨?_, (startAlike.addState ⟨.literal character, .accept⟩).addMoves ?_⟩
    · change Fragment.mk second.supply.next [second.supply.next + 1] = _
      rw [accept, start]
      rfl
    · change [Transition.reading second.supply.next _ (second.supply.next + 1)] = _
      rw [accept, start]
      rfl
  | concat left right leftHypothesis rightHypothesis =>
    rcases leftHypothesis apart with ⟨leftSame, leftAlike⟩
    rcases rightHypothesis leftAlike.next with ⟨rightSame, rightAlike⟩
    refine ⟨?_, (leftAlike.trans rightAlike).addMoves ?_⟩
    · rw [assemble_concat, assemble_concat]
      simp only [leftSame, rightSame, Fragment.shift]
    · rw [leftSame, rightSame]
      exact bridges_shift distance _ _
  | choice left right leftHypothesis rightHypothesis =>
    rcases leftHypothesis apart with ⟨leftSame, leftAlike⟩
    rcases rightHypothesis leftAlike.next with ⟨rightSame, rightAlike⟩
    have alike := leftAlike.trans rightAlike
    have start := alike.next
    refine ⟨?_, (alike.addState _).addMoves ?_⟩
    · rw [assemble_choice, assemble_choice]
      simp only [Assembly.addState, StateSupply.fresh, start, leftSame, rightSame, Fragment.shift,
        List.map_append]
    · rw [leftSame, rightSame]
      simp only [StateSupply.fresh, start]
      rfl
  | star inner inductionHypothesis =>
    rcases inductionHypothesis apart with ⟨innerSame, alike⟩
    have start := alike.next
    refine ⟨?_, (alike.addState _).addMoves ?_⟩
    · rw [assemble_star, assemble_star]
      simp only [Assembly.addState, StateSupply.fresh, start, innerSame, Fragment.shift,
        List.map_cons]
    · rw [innerSame, List.map_cons, ← bridges_shift]
      simp only [StateSupply.fresh, start]
      rfl

/-- What is added to an assembly is what is assembled from nothing, moved to the next state. -/
theorem assemble_eq_shift (pattern : Pattern) (assembly : Assembly) :
    (assemble pattern assembly).1 = (assemble pattern {}).1.shift assembly.supply.next ∧
    (assemble pattern assembly).2.moves = assembly.moves ++
      (assemble pattern {}).2.moves.map (Transition.mapStates (assembly.supply.next + ·)) ∧
    (assemble pattern assembly).2.origins = assembly.origins ++
      (assemble pattern {}).2.origins.map
        (fun made => (assembly.supply.next + made.1, made.2)) := by
  have apart : assembly.supply.next = assembly.supply.next + ({} : Assembly).supply.next :=
    (UInt32.add_zero _).symm
  rcases growAlike_assemble pattern apart with ⟨sameFragment, alike⟩
  rcases alike.moves with ⟨moves, fromNothing, added⟩
  rcases alike.origins with ⟨origins, originsFromNothing, originsAdded⟩
  rw [fromNothing, originsFromNothing]
  exact ⟨sameFragment, added, originsAdded⟩

/-! ## The block of numbers -/

namespace Assembly

/-- The numbers of the states that have been recorded, in the order in which they were made. -/
def numbers (assembly : Assembly) : List Nat := assembly.origins.map fun made => made.1.toNat

/-- Every state that was handed out has been recorded, once and in order. -/
def RecordsOnce (assembly : Assembly) : Prop :=
  assembly.numbers = List.range assembly.supply.next.toNat

theorem RecordsOnce.length_origins {assembly : Assembly} (recordsOnce : assembly.RecordsOnce) :
    assembly.origins.length = assembly.supply.next.toNat := by
  have lengths := congrArg List.length recordsOnce
  rwa [numbers, List.length_map, List.length_range] at lengths

/-- Nothing but the number of states keeps an assembly from recording each of them once. -/
theorem recordsOnce_iff (assembly : Assembly) :
    assembly.RecordsOnce ↔ assembly.origins.length < UInt32.size := by
  constructor
  · intro recordsOnce
    rw [recordsOnce.length_origins]
    exact assembly.supply.next.toNat_lt_size
  · intro inRange
    have next : assembly.supply.next.toNat = assembly.origins.length := by
      rw [assembly.next_eq]
      exact UInt32.toNat_ofNat_of_lt inRange
    calc assembly.numbers
        = (assembly.origins.map Prod.fst).map UInt32.toNat := by
          rw [List.map_map]
          rfl
      _ = (List.range assembly.origins.length).map (UInt32.toNat ∘ UInt32.ofNat) := by
        rw [assembly.recorded, List.map_map]
      _ = (List.range assembly.origins.length).map id := by
        apply List.map_congr_left
        intro place listed
        exact UInt32.toNat_ofNat_of_lt (Nat.lt_trans (List.mem_range.mp listed) inRange)
      _ = List.range assembly.supply.next.toNat := by rw [List.map_id, next]

/-- A state that has not been handed out has no entry. -/
theorem RecordsOnce.lookup_eq_none {assembly : Assembly} (recordsOnce : assembly.RecordsOnce)
    {state : StateId} (unused : assembly.supply.next.toNat ≤ state.toNat) :
    assembly.origins.lookup state = none := by
  rw [List.lookup_eq_none_iff]
  intro made listed
  rw [bne_iff_ne]
  intro same
  have number : made.1.toNat ∈ assembly.numbers := List.mem_map_of_mem listed
  rw [recordsOnce, List.mem_range, ← same] at number
  omega

end Assembly

/-- The states of what is assembled from nothing are numbered from 0. -/
theorem numbers_assemble_nothing {pattern : Pattern} (fits : pattern.origins.length < UInt32.size) :
    (assemble pattern {}).2.numbers = List.range pattern.origins.length := by
  have recordsOnce : (assemble pattern {}).2.RecordsOnce := by
    rw [Assembly.recordsOnce_iff, length_origins_assemble]
    change 0 + _ < _
    rwa [Nat.zero_add]
  rw [recordsOnce]
  exact congrArg List.range (built_assemble_nothing fits).1

/-- Within the block, moving a state adds to its number. -/
theorem toNat_add_of_between {low : StateId} {count : Nat} (fits : low.toNat + count < UInt32.size)
    {state : StateId} (inBlock : Between 0 count state) :
    (low + state).toNat = low.toNat + state.toNat := by
  have below := inBlock.2
  have inRange : low.toNat + state.toNat < UInt32.size := by omega
  rw [UInt32.toNat_add]
  exact Nat.mod_eq_of_lt inRange

/-- What adding the fragment of a pattern is to do to an assembly. -/
structure AddsBlock (pattern : Pattern) (before : Assembly) (fragment : Fragment)
    (after : Assembly) (moves : List Move) (origins : List (StateId × Origin)) : Prop where
  /-- The moves and states that were there stay as they were and where they were. -/
  moves_eq : after.moves = before.moves ++ moves
  origins_eq : after.origins = before.origins ++ origins
  /-- The states are a block of numbers whose size depends on the pattern alone. -/
  next_eq : after.supply.next.toNat = before.supply.next.toNat + pattern.origins.length
  numbers_eq : origins.map (fun made => made.1.toNat) =
    List.range' before.supply.next.toNat pattern.origins.length
  /-- What is added keeps to the block, and nothing enters the start. -/
  isolated : Isolated fragment moves before.supply.next.toNat after.supply.next.toNat
  /-- No state is recorded a second time. -/
  recordsOnce : before.RecordsOnce -> after.RecordsOnce
  /-- No entry replaces an earlier one. -/
  unused : before.RecordsOnce -> forall made, made ∈ origins -> before.origins.lookup made.1 = none

theorem addsBlock_assemble {pattern : Pattern} {assembly : Assembly}
    (fits : assembly.supply.next.toNat + pattern.origins.length < UInt32.size) :
    AddsBlock pattern assembly (assemble pattern assembly).1 (assemble pattern assembly).2
      ((assemble pattern {}).2.moves.map (Transition.mapStates (assembly.supply.next + ·)))
      ((assemble pattern {}).2.origins.map
        fun made => (assembly.supply.next + made.1, made.2)) := by
  rcases assemble_eq_shift pattern assembly with ⟨_, movesEq, originsEq⟩
  have next := toNat_next_assemble fits
  have fitsFromZero : pattern.origins.length < UInt32.size := by omega
  have numbers : ((assemble pattern {}).2.origins.map fun made =>
      (assembly.supply.next + made.1, made.2)).map (fun made => made.1.toNat) =
        List.range' assembly.supply.next.toNat pattern.origins.length := by
    rw [List.map_map, List.range'_eq_map_range, ← numbers_assemble_nothing fitsFromZero,
      Assembly.numbers, List.map_map]
    apply List.map_congr_left
    intro made listed
    have number : made.1.toNat ∈ (assemble pattern {}).2.numbers := List.mem_map_of_mem listed
    rw [numbers_assemble_nothing fitsFromZero, List.mem_range] at number
    exact toNat_add_of_between fits ⟨Nat.zero_le _, number⟩
  refine ⟨movesEq, originsEq, next, numbers, ?_, ?_, ?_⟩
  · rcases built_assemble pattern assembly fits with ⟨moves, added, _, built⟩
    rw [movesEq] at added
    rw [next, List.append_cancel_left added]
    exact built.isolated
  · intro recordsOnce
    rw [Assembly.recordsOnce_iff, length_origins_assemble, recordsOnce.length_origins]
    exact fits
  · intro recordsOnce made listed
    have number : made.1.toNat ∈ List.range' assembly.supply.next.toNat pattern.origins.length := by
      rw [← numbers]
      exact List.mem_map_of_mem listed
    exact recordsOnce.lookup_eq_none (List.mem_range'_1.mp number).1

/-- Whatever an assembly holds, the fragment of a pattern is added as a block that nothing else
touches, and it is the fragment that is assembled from nothing with the next number added to
the number of every state. -/
theorem fragments_isolated_and_relocatable (pattern : Pattern) (assembly : Assembly)
    (fits : assembly.supply.next.toNat + pattern.origins.length < UInt32.size) :
    exists moves origins,
      AddsBlock pattern assembly (assemble pattern assembly).1 (assemble pattern assembly).2
        moves origins ∧
      (assemble pattern assembly).1 = (assemble pattern {}).1.shift assembly.supply.next ∧
      moves = (assemble pattern {}).2.moves.map
        (Transition.mapStates (assembly.supply.next + ·)) ∧
      origins = (assemble pattern {}).2.origins.map
        (fun made => (assembly.supply.next + made.1, made.2)) ∧
      forall state, Between 0 pattern.origins.length state ->
        (assembly.supply.next + state).toNat = assembly.supply.next.toNat + state.toNat := by
  refine ⟨_, _, addsBlock_assemble fits, ?_, rfl, rfl, fun _ => toNat_add_of_between fits⟩
  exact (assemble_eq_shift pattern assembly).1

/-- An assembly in which two states have been used. -/
def besideLiteral : Assembly := (assemble (.literal 'z') {}).2

theorem fragments_isolated_besideLiteral :
    besideLiteral.supply.next.toNat + (Pattern.star (.literal 'a')).origins.length <
        UInt32.size ∧
      AddsBlock (.star (.literal 'a')) besideLiteral ⟨4, [4, 2, 3]⟩
        (assemble (.star (.literal 'a')) besideLiteral).2
        [.reading 2 'a' 3, .free 4 2, .free 3 2]
        [(2, ⟨.literal 'a', .start⟩), (3, ⟨.literal 'a', .accept⟩),
          (4, ⟨.star (.literal 'a'), .start⟩)] := by
  have fits : besideLiteral.supply.next.toNat + (Pattern.star (.literal 'a')).origins.length <
      UInt32.size := by
    decide
  rcases fragments_isolated_and_relocatable _ _ fits with
    ⟨moves, origins, addsBlock, _, movesEq, originsEq, _⟩
  rw [movesEq, originsEq] at addsBlock
  exact ⟨fits, addsBlock⟩

end Thompson
end FiniteAutomata
