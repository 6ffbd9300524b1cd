import FiniteAutomata.Thompson.Compilation
import FiniteAutomata.Thompson.Origins

namespace FiniteAutomata
namespace Thompson

/-!
# What is added for a pattern

`Built` describes the construction without the assembly that grows in the course
of it: which fragments and which moves belong to a pattern, and which block of
numbers their states take up.  As long as the numbers suffice, an assembly adds
exactly such a fragment and such moves to what it holds already.  Everything else
about the construction follows by induction on `Built`.
-/

/-- `Built pattern low high fragment moves` says that the fragment and the moves
belong to the pattern, and that their states are numbered from `low` up to, but
not including, `high`. -/
inductive Built : Pattern -> Nat -> Nat -> Fragment -> List Move -> Prop where
  | empty {start : StateId} : Built .empty start.toNat (start.toNat + 1) ⟨start, [start]⟩ []
  | literal {character : Char} {start accept : StateId} :
      accept.toNat = start.toNat + 1 ->
        Built (.literal character) start.toNat (start.toNat + 2) ⟨start, [accept]⟩
          [.reading start character accept]
  | concat {first second : Pattern} {low middle high : Nat} {firstPart secondPart : Fragment}
      {firstMoves secondMoves : List Move} :
      Built first low middle firstPart firstMoves ->
        Built second middle high secondPart secondMoves ->
          Built (.concat first second) low high ⟨firstPart.start, secondPart.accepting⟩
            (firstMoves ++ secondMoves ++
              firstPart.accepting.map fun state => .free state secondPart.start)
  | choice {first second : Pattern} {low middle : Nat} {start : StateId}
      {firstPart secondPart : Fragment} {firstMoves secondMoves : List Move} :
      Built first low middle firstPart firstMoves ->
        Built second middle start.toNat secondPart secondMoves ->
          Built (.choice first second) low (start.toNat + 1)
            ⟨start, firstPart.accepting ++ secondPart.accepting⟩
            (firstMoves ++ secondMoves ++
              [.free start firstPart.start, .free start secondPart.start])
  | star {inner : Pattern} {low : Nat} {start : StateId} {part : Fragment}
      {moves : List Move} :
      Built inner low start.toNat part moves ->
        Built (.star inner) low (start.toNat + 1)
          ⟨start, start :: part.start :: part.accepting⟩
          (moves ++ .free start part.start ::
            part.accepting.map fun state => .free state part.start)

/-! ## One equation for each kind of pattern -/

theorem assemble_concat (first second : Pattern) (assembly : Assembly) :
    assemble (.concat first second) assembly =
      let firstBuilt := assemble first assembly
      let secondBuilt := assemble second firstBuilt.2
      (⟨firstBuilt.1.start, secondBuilt.1.accepting⟩, secondBuilt.2.addMoves
        (firstBuilt.1.accepting.map fun state => .free state secondBuilt.1.start)) :=
  rfl

theorem assemble_choice (first second : Pattern) (assembly : Assembly) :
    assemble (.choice first second) assembly =
      let firstBuilt := assemble first assembly
      let secondBuilt := assemble second firstBuilt.2
      let added := secondBuilt.2.addState ⟨.choice first second, .start⟩
      (⟨added.1, firstBuilt.1.accepting ++ secondBuilt.1.accepting⟩, added.2.addMoves
        [.free added.1 firstBuilt.1.start, .free added.1 secondBuilt.1.start]) :=
  rfl

theorem assemble_star (inner : Pattern) (assembly : Assembly) :
    assemble (.star inner) assembly =
      let built := assemble inner assembly
      let added := built.2.addState ⟨.star inner, .start⟩
      (⟨added.1, added.1 :: built.1.start :: built.1.accepting⟩, added.2.addMoves
        (.free added.1 built.1.start ::
          built.1.accepting.map fun state => .free state built.1.start)) :=
  rfl

/-- Every state that is made is recorded, in the order in which the states are made. -/
theorem origins_assemble (pattern : Pattern) (assembly : Assembly) :
    (assemble pattern assembly).2.origins.map Prod.snd =
      assembly.origins.map Prod.snd ++ pattern.origins := by
  induction pattern generalizing assembly with
  | empty => exact List.map_append
  | literal character =>
    change ((assembly.origins ++ [_]) ++ [_]).map Prod.snd = _
    rw [List.map_append, List.map_append, List.append_assoc]
    rfl
  | concat first second firstHypothesis secondHypothesis =>
    change (assemble second (assemble first assembly).2).2.origins.map Prod.snd = _
    rw [secondHypothesis, firstHypothesis, List.append_assoc]
    rfl
  | choice first second firstHypothesis secondHypothesis =>
    change ((assemble second (assemble first assembly).2).2.origins ++ [_]).map Prod.snd = _
    rw [List.map_append, secondHypothesis, firstHypothesis, List.append_assoc,
      List.append_assoc, Pattern.origins, List.append_assoc]
    rfl
  | star inner inductionHypothesis =>
    change ((assemble inner assembly).2.origins ++ [_]).map Prod.snd = _
    rw [List.map_append, inductionHypothesis, List.append_assoc]
    rfl

theorem length_origins_assemble (pattern : Pattern) (assembly : Assembly) :
    (assemble pattern assembly).2.origins.length =
      assembly.origins.length + pattern.origins.length := by
  have lengths := congrArg List.length (origins_assemble pattern assembly)
  rwa [List.length_append, List.length_map, List.length_map] at lengths

/-! ## The construction in an assembly -/

theorem toNat_succ (state : StateId) (fits : state.toNat + 1 < UInt32.size) :
    (state + 1).toNat = state.toNat + 1 := by
  rw [UInt32.toNat_add]
  exact Nat.mod_eq_of_lt fits

/-- As long as the numbers suffice, an assembly takes the next block of numbers and
adds what is built with them behind the moves that it holds. -/
theorem built_assemble (pattern : Pattern) (assembly : Assembly)
    (fits : assembly.supply.next.toNat + pattern.origins.length < UInt32.size) :
    exists moves, (assemble pattern assembly).2.moves = assembly.moves ++ moves ∧
      (assemble pattern assembly).2.supply.next.toNat =
        assembly.supply.next.toNat + pattern.origins.length ∧
      Built pattern assembly.supply.next.toNat
        (assembly.supply.next.toNat + pattern.origins.length)
        (assemble pattern assembly).1 moves := by
  induction pattern generalizing assembly with
  | empty =>
    have next := toNat_succ assembly.supply.next fits
    exact ⟨[], (List.append_nil _).symm, next, Built.empty⟩
  | literal character =>
    have fitsTwice : assembly.supply.next.toNat + 2 < UInt32.size := fits
    have accept := toNat_succ assembly.supply.next (by omega)
    have next := toNat_succ (assembly.supply.next + 1) (by omega)
    rw [accept] at next
    exact ⟨_, rfl, next, Built.literal accept⟩
  | concat first second firstHypothesis secondHypothesis =>
    rw [Pattern.origins, List.length_append] at fits ⊢
    rcases firstHypothesis assembly (by omega) with ⟨firstMoves, firstAdded, firstNext, firstBuilt⟩
    rcases secondHypothesis (assemble first assembly).2 (by omega) with
      ⟨secondMoves, secondAdded, secondNext, secondBuilt⟩
    rw [firstNext] at secondNext secondBuilt
    rw [assemble_concat, ← Nat.add_assoc]
    refine ⟨_, ?_, secondNext, Built.concat firstBuilt secondBuilt⟩
    change (assemble second (assemble first assembly).2).2.moves ++ _ = _
    rw [secondAdded, firstAdded, List.append_assoc, List.append_assoc, List.append_assoc]
  | choice first second firstHypothesis secondHypothesis =>
    rw [Pattern.origins, List.length_append, List.length_append, List.length_singleton] at fits ⊢
    rcases firstHypothesis assembly (by omega) with ⟨firstMoves, firstAdded, firstNext, firstBuilt⟩
    rcases secondHypothesis (assemble first assembly).2 (by omega) with
      ⟨secondMoves, secondAdded, secondNext, secondBuilt⟩
    have next := toNat_succ (assemble second (assemble first assembly).2).2.supply.next
      (by omega)
    have high : (assemble second (assemble first assembly).2).2.supply.next.toNat + 1 =
        assembly.supply.next.toNat + (first.origins.length + second.origins.length + 1) := by
      omega
    rw [← secondNext, firstNext] at secondBuilt
    rw [assemble_choice, ← high]
    refine ⟨_, ?_, next, Built.choice firstBuilt secondBuilt⟩
    change (assemble second (assemble first assembly).2).2.moves ++ _ = _
    rw [secondAdded, firstAdded, List.append_assoc, List.append_assoc, List.append_assoc]
    rfl
  | star inner inductionHypothesis =>
    rw [Pattern.origins, List.length_append, List.length_singleton] at fits ⊢
    rcases inductionHypothesis assembly (by omega) with ⟨moves, added, innerNext, innerBuilt⟩
    have next := toNat_succ (assemble inner assembly).2.supply.next (by omega)
    have high : (assemble inner assembly).2.supply.next.toNat + 1 =
        assembly.supply.next.toNat + (inner.origins.length + 1) := by
      omega
    rw [← innerNext] at innerBuilt
    rw [assemble_star, ← high]
    refine ⟨_, ?_, next, Built.star innerBuilt⟩
    change (assemble inner assembly).2.moves ++ _ = _
    rw [added, List.append_assoc]
    rfl

/-- As many numbers are used up as the pattern needs states. -/
theorem toNat_next_assemble {pattern : Pattern} {assembly : Assembly}
    (fits : assembly.supply.next.toNat + pattern.origins.length < UInt32.size) :
    (assemble pattern assembly).2.supply.next.toNat =
      assembly.supply.next.toNat + pattern.origins.length := by
  rcases built_assemble pattern assembly fits with ⟨_, _, next, _⟩
  exact next

/-- What is assembled from nothing is built with the first numbers there are. -/
theorem built_assemble_nothing {pattern : Pattern} (fits : pattern.origins.length < UInt32.size) :
    (assemble pattern {}).2.supply.allocated.toNat = pattern.origins.length ∧
      Built pattern 0 pattern.origins.length (assemble pattern {}).1
        (assemble pattern {}).2.moves := by
  have fitsFromZero : 0 + pattern.origins.length < UInt32.size := by
    rw [Nat.zero_add]
    exact fits
  rcases built_assemble pattern {} fitsFromZero with ⟨moves, added, next, built⟩
  rw [added]
  rw [← Nat.zero_add pattern.origins.length]
  exact ⟨next, built⟩

end Thompson
end FiniteAutomata
