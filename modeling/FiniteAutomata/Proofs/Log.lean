import FiniteAutomata.Proofs.Determinization.Record
import FiniteAutomata.Proofs.Liveness
import Mathlib.Data.List.Perm.Basic

namespace FiniteAutomata

/-!
# The log is a faithful record

Building a matcher leaves a record of the automaton of the pattern, then, if a deterministic
automaton was asked for, of each state that was found for it and of its size, and at last of
the matcher.  Matching leaves nothing.  The number of states that is recorded for a pattern
is that of the states that were taken from the supply; they all belong to the automaton and
the automaton has no others, so it is also the number of its states.
-/

/-- A set with exactly the states below a bound has as many members as the bound says. -/
theorem SortedSet.size_eq_of_mem_iff {states : StateSet} {count : Nat}
    (fits : count < UInt32.size)
    (mem_iff : forall state, state ∈ states ↔ state.toNat < count) : states.size = count := by
  have numbersNodup : (states.toList.map UInt32.toNat).Nodup :=
    states.nodup_toList.map fun _ _ => UInt32.toNat_inj.mp
  have sameNumbers : forall number,
      number ∈ states.toList.map UInt32.toNat ↔ number ∈ List.range count := by
    intro number
    rw [List.mem_map, List.mem_range]
    constructor
    · rintro ⟨state, listed, rfl⟩
      exact (mem_iff state).mp listed
    · intro below
      have number_eq : (UInt32.ofNat number).toNat = number :=
        UInt32.toNat_ofNat_of_lt' (Nat.lt_trans below fits)
      exact ⟨UInt32.ofNat number, (mem_iff _).mpr (number_eq.symm ▸ below), number_eq⟩
  have perm := (List.perm_ext_iff_of_nodup numbersNodup List.nodup_range).mpr sameNumbers
  rw [size, ← List.length_map (f := UInt32.toNat), perm.length_eq, List.length_range]

namespace Pattern

/-- There are as many states as the pattern has origins. -/
theorem stateCount_toNfa {pattern : Pattern} (fits : pattern.origins.length < UInt32.size) :
    pattern.toNfa.stateCount = pattern.origins.length :=
  SortedSet.size_eq_of_mem_iff fits fun _ => mem_states_toNfa fits

/-- The states that were taken from the supply are counted as states of the automaton. -/
theorem toNat_allocated_eq_stateCount {pattern : Pattern}
    (fits : pattern.origins.length < UInt32.size) :
    (Thompson.assemble pattern {}).2.supply.allocated.toNat = pattern.toNfa.stateCount := by
  rw [(Thompson.built_assemble_nothing fits).1, stateCount_toNfa fits]

end Pattern

namespace Matcher

/-- The line of the log that tells how large the automaton of a pattern is. -/
def compiledLine (pattern : Pattern) : Level × String :=
  (Level.trace, "Compiled /" ++ pattern.render ++ "/: " ++ toString pattern.toNfa.stateCount ++
    " states, " ++ toString pattern.toNfa.moves.length ++ " rules")

/-- The line of the log that names the pattern of a matcher and its engine. -/
def builtLine (config : Config) (pattern : Pattern) : Level × String :=
  (Level.debug, "Compiled /" ++ pattern.render ++ "/ for the " ++
    (match config.engine with | .nfa => "Nfa" | .dfa => "Dfa") ++ " engine")

/-- What the record of building a matcher is to be: the size of the automaton of the pattern,
then how the deterministic automaton was made, if the engine runs one, and at last the
matcher. -/
structure Records (config : Config) (pattern : Pattern) (events : List Event) : Prop where
  events_eq : exists states : StateId, states.toNat = pattern.toNfa.stateCount ∧
    events = [.compiled pattern states pattern.toNfa.moves.length] ++
      (if config.engine = .dfa then pattern.toNfa.determinize.events else []) ++
        [.built pattern config.engine]
  levels_eq : events.map Event.level = [Level.trace] ++
    (if config.engine = .dfa then
      List.replicate (pattern.toDfa.states.length - 1) Level.trace ++ [Level.debug]
    else []) ++ [Level.debug]
  /-- This is what can be read in the log. -/
  lines_eq : exists discoveries,
    pattern.toNfa.Records pattern.toNfa.determinize.events discoveries ∧
      events.map Event.line = [compiledLine pattern] ++
        (if config.engine = .dfa then
          discoveries.map Discovery.line ++ [pattern.toNfa.sizesLine]
        else []) ++ [builtLine config pattern]

theorem events_automatonFor (engine : Engine) (nfa : Nfa) :
    (automatonFor engine nfa).events = if engine = .dfa then nfa.determinize.events else [] := by
  cases engine with
  | nfa => rfl
  | dfa => exact List.append_nil nfa.determinize.events

theorem events_build (config : Config) (pattern : Pattern) :
    (build config pattern).events =
      [.compiled pattern (Thompson.assemble pattern {}).2.supply.allocated
        pattern.toNfa.moves.length] ++ (automatonFor config.engine pattern.toNfa).events ++
          [.built pattern config.engine] :=
  (List.append_assoc _ _ _).symm

theorem records_build {pattern : Pattern} (fits : pattern.origins.length < UInt32.size)
    (config : Config) : Records config pattern (build config pattern).events := by
  have events_eq := events_build config pattern
  rw [events_automatonFor] at events_eq
  have records := Nfa.records_determinize pattern.toNfa
  have count := Pattern.toNat_allocated_eq_stateCount fits
  refine ⟨⟨_, count, events_eq⟩, ?_, _, records, ?_⟩
  · rw [events_eq, List.map_append, List.map_append, apply_ite (List.map Event.level),
      records.levels_eq]
    rfl
  · rw [events_eq, List.map_append, List.map_append, apply_ite (List.map Event.line),
      records.lines_eq, compiledLine, ← count]
    rfl

/-- Texts are matched without adding to the record. -/
theorem session_eq (config : Config) (pattern : Pattern) (texts : List String) :
    session config pattern texts =
      ⟨texts.map (build config pattern).value.isMatch, (build config pattern).events⟩ :=
  congrArg (Logged.mk _) (List.append_nil _)

/-- Making an automaton deterministic records each state but the start, in the order of
discovery and with the first pair that leads to it, and then the sizes.  Building a matcher
records what was made, and matching records nothing. -/
theorem log_records_construction :
    (forall nfa : Nfa, exists discoveries, nfa.Records nfa.determinize.events discoveries) ∧
    forall pattern : Pattern, pattern.toLabelledNfa.origins.length < UInt32.size ->
      forall config, Records config pattern (build config pattern).events ∧
        forall texts, session config pattern texts =
          ⟨texts.map (build config pattern).value.isMatch, (build config pattern).events⟩ := by
  refine ⟨fun nfa => ⟨_, Nfa.records_determinize nfa⟩, fun pattern fits config => ?_⟩
  rw [Pattern.length_origins_toLabelledNfa] at fits
  exact ⟨records_build fits config, fun texts => session_eq config pattern texts⟩

theorem log_records_repeatedPair :
    Pattern.repeatedPair.toLabelledNfa.origins.length < UInt32.size ∧
      Records {} Pattern.repeatedPair (build {} Pattern.repeatedPair).events ∧
      session {} Pattern.repeatedPair ["abab", "ba"] =
        ⟨[true, false], (build {} Pattern.repeatedPair).events⟩ := by
  have fits : Pattern.repeatedPair.toLabelledNfa.origins.length < UInt32.size := by decide
  have answers : ["abab", "ba"].map (build {} Pattern.repeatedPair).value.isMatch =
      [true, false] := by
    decide +kernel
  rcases log_records_construction.2 Pattern.repeatedPair fits {} with ⟨records, unchanged⟩
  exact ⟨fits, records, answers ▸ unchanged _⟩

/-- The empty set is reached from many states and named with the first of them. -/
example : (build {} Pattern.repeatedPair).events.map Event.line =
    [(.trace, "Compiled /(ab)*/: 5 states, 5 rules"),
      (.trace, "Add state: \x7b1, 2\x7d (from \x7b0, 4\x7d on 'a')"),
      (.trace, "Add state: \x7b\x7d (from \x7b0, 4\x7d on 'b')"),
      (.trace, "Add state: \x7b0, 3\x7d (from \x7b1, 2\x7d on 'b')"),
      (.debug, "Subset construction: 5 NFA states -> 4 DFA states (2 accepting), 8 rules"),
      (.debug, "Compiled /(ab)*/ for the Dfa engine")] := by
  decide +kernel

end Matcher
end FiniteAutomata
