import FiniteAutomata.Proofs.Determinization.Discovery
import FiniteAutomata.Proofs.Determinization.Table

namespace FiniteAutomata

/-!
# How the sets were found

When an exploration finds a set, it notes the rule that led there.  Until then no rule led
to the set, since the targets of all rules are known; so the rule that is noted is the first
of all rules that lead there, and it remains the first when more are added.  Every known
set that is not a seed is noted in its turn.

The rules stand in the order of their sources, and those of the same source in the order of
their characters.  What is noted with a state of the deterministic automaton is therefore
the first pair of a state and a character, in this order, that leads to it.
-/

namespace Exploration

variable {nfa : Nfa} {seeds : List StateSet}

/-! ## The rule that is noted -/

/-- The known sets are the seeds and those that were noted, and each of the latter was noted
with the first rule that leads to it. -/
structure Noted (seeds : List StateSet) (exploration : Exploration) : Prop where
  known_eq : exploration.known =
    seeds.eraseDups ++ exploration.discoveries.map Discovery.state
  target_known : forall rule, rule ∈ exploration.rules -> rule.target ∈ exploration.known
  first : forall discovery, discovery ∈ exploration.discoveries ->
    exploration.rules.find? (fun rule => decide (rule.target = discovery.state)) =
      some ⟨discovery.source, discovery.symbol, discovery.state⟩

theorem Noted.begin (seeds : List StateSet) : (Exploration.begin seeds).Noted seeds where
  known_eq := (List.append_nil seeds.eraseDups).symm
  target_known := fun _ listed => absurd listed List.not_mem_nil
  first := fun _ listed => absurd listed List.not_mem_nil

theorem Noted.follow {exploration : Exploration} (noted : exploration.Noted seeds)
    (source : StateSet) (character : Char) :
    (follow nfa source exploration character).Noted seeds := by
  have follows : Follows nfa source [character] exploration _ :=
    follow_follows source exploration character
  have targetKnown : forall rule,
      rule ∈ (Exploration.follow nfa source exploration character).rules ->
        rule.target ∈ (Exploration.follow nfa source exploration character).known := by
    intro rule listed
    rw [follows.rules_eq] at listed
    rcases List.mem_append.mp listed with wasListed | isNew
    · exact follows.known_prefix.subset (noted.target_known rule wasListed)
    · rw [List.mem_singleton.mp isNew]
      exact follows.target_known character List.mem_cons_self
  by_cases isKnown : nfa.advance source character ∈ exploration.known
  · rw [follow_of_known isKnown] at targetKnown ⊢
    refine ⟨noted.known_eq, targetKnown, fun discovery listed => ?_⟩
    rw [List.find?_append, noted.first discovery listed]
    rfl
  · rw [follow_of_unknown isKnown] at targetKnown ⊢
    refine ⟨?_, targetKnown, fun discovery listed => ?_⟩
    · rw [List.map_append, ← List.append_assoc, ← noted.known_eq]
      exact (List.append_assoc _ _ _).symm
    · rw [List.find?_append]
      rcases List.mem_append.mp listed with wasListed | isNew
      · rw [noted.first discovery wasListed]
        rfl
      · -- No earlier rule leads to the set, because it was unknown.
        have noEarlier : exploration.rules.find? (fun rule =>
            decide (rule.target = nfa.advance source character)) = none := by
          apply List.find?_eq_none.mpr
          intro rule ruleListed leads
          exact isKnown (of_decide_eq_true leads ▸ noted.target_known rule ruleListed)
        rw [List.mem_singleton.mp isNew, noEarlier, Option.none_or]
        exact List.find?_cons_of_pos (decide_eq_true rfl)

theorem Noted.run {exploration : Exploration} (noted : exploration.Noted seeds) :
    (exploration.run nfa).Noted seeds := by
  apply holds_run _ _ noted
  · intro exploration current later waits noted
    refine ⟨(known_of_waits waits).trans noted.known_eq, fun rule listed => ?_, noted.first⟩
    change rule.target ∈ exploration.expanded ++ [current] ++ later
    rw [known_of_waits waits]
    exact noted.target_known rule listed
  · intro source exploration character _ noted
    exact noted.follow source character

end Exploration

/-! ## The order of the rules -/

/-- Of two rules the first leaves an earlier set, or the same set on an earlier character. -/
def RuleBefore (known : List StateSet) (first second : Rule StateSet) : Prop :=
  known.idxOf first.source < known.idxOf second.source ∨
    (second.source = first.source ∧ first.symbol < second.symbol)

theorem pairwise_idxOf_lt {known : List StateSet} (nodup : known.Nodup) :
    known.Pairwise fun earlier later => known.idxOf earlier < known.idxOf later := by
  rw [List.pairwise_iff_getElem]
  intro first second firstBound secondBound before
  rw [nodup.idxOf_getElem, nodup.idxOf_getElem]
  exact before

namespace Nfa

variable {nfa : Nfa}

theorem rules_in_order (nfa : Nfa) (seeds : List StateSet) :
    (nfa.explore seeds).rules.Pairwise (RuleBefore (nfa.explore seeds).known) := by
  rw [rules_explore, List.pairwise_flatMap]
  constructor
  · intro source _
    rw [rulesOf, List.pairwise_map]
    exact nfa.alphabet.ascending.imp fun below => Or.inr ⟨rfl, below⟩
  · apply (pairwise_idxOf_lt (nodup_known nfa seeds)).imp
    intro earlier later before first firstListed second secondListed
    rcases List.mem_map.mp firstListed with ⟨_, _, rfl⟩
    rcases List.mem_map.mp secondListed with ⟨_, _, rfl⟩
    exact Or.inl before

end Nfa

/-! ## What is recorded -/

/-- What a discovery names as source and character is the first pair that leads to its set:
no earlier state of the deterministic automaton leads there, and the source itself does not
on an earlier character. -/
structure Discovery.IsEarliest (nfa : Nfa) (discovery : Discovery) : Prop where
  source_mem : discovery.source ∈ nfa.toDfa.states
  symbol_mem : discovery.symbol ∈ nfa.alphabet
  leads : nfa.advance discovery.source discovery.symbol = discovery.state
  earliest : forall source character, source ∈ nfa.toDfa.states -> character ∈ nfa.alphabet ->
    nfa.advance source character = discovery.state ->
      nfa.toDfa.states.idxOf discovery.source < nfa.toDfa.states.idxOf source ∨
        (source = discovery.source ∧ discovery.symbol ≤ character)

/-- The line of the log that names a state that was found, by its members, and the pair that
leads there. -/
def Discovery.line (discovery : Discovery) : Level × String :=
  (Level.trace, "Add state: " ++ named discovery.state ++ " (from " ++ named discovery.source ++
    " on " ++ Text.quotedChar discovery.symbol ++ ")")
where
  named (states : StateSet) : String :=
    "\x7b" ++ ", ".intercalate (states.toList.map toString) ++ "\x7d"

/-- The line of the log that tells how large the automaton was and what came of it. -/
def Nfa.sizesLine (nfa : Nfa) : Level × String :=
  (Level.debug, "Subset construction: " ++ toString nfa.stateCount ++ " NFA states -> " ++
    toString nfa.toDfa.states.length ++ " DFA states (" ++
    toString nfa.toDfa.accepting.length ++ " accepting), " ++
    toString (nfa.toDfa.states.length * nfa.alphabet.size) ++ " rules")

/-- What the record of making an automaton deterministic is to be: how each state was found,
apart from the start, and then the sizes. -/
structure Nfa.Records (nfa : Nfa) (events : List Event) (discoveries : List Discovery) :
    Prop where
  events_eq : events = discoveries.map Event.discovered ++
    [.determinized nfa.stateCount nfa.toDfa.states.length nfa.toDfa.accepting.length
      (nfa.toDfa.states.length * nfa.alphabet.size)]
  levels_eq : events.map Event.level =
    List.replicate (nfa.toDfa.states.length - 1) Level.trace ++ [Level.debug]
  /-- The states are recorded in the order in which the automaton lists them. -/
  states_eq : discoveries.map Discovery.state = nfa.toDfa.states.tail
  earliest : forall discovery, discovery ∈ discoveries -> discovery.IsEarliest nfa
  /-- This is what can be read in the log. -/
  lines_eq : events.map Event.line = discoveries.map Discovery.line ++ [nfa.sizesLine]

namespace Nfa

variable {nfa : Nfa}

/-- The first of all rules that lead to a set is the one with which the set was noted. -/
theorem isEarliest_of_first {discovery : Discovery}
    (first : (nfa.explore [nfa.closure nfa.initial]).rules.find?
        (fun rule => decide (rule.target = discovery.state)) =
      some ⟨discovery.source, discovery.symbol, discovery.state⟩) :
    discovery.IsEarliest nfa := by
  rcases List.find?_eq_some_iff_append.mp first with ⟨_, before, after, rules_eq, noneBefore⟩
  have listed : ⟨discovery.source, discovery.symbol, discovery.state⟩ ∈
      (nfa.explore [nfa.closure nfa.initial]).rules := List.mem_of_find?_eq_some first
  rcases mem_rules_explore.mp listed with ⟨sourceKnown, symbolInside, leads⟩
  have inOrder := rules_in_order nfa [nfa.closure nfa.initial]
  refine ⟨mem_states_toDfa.mpr sourceKnown, symbolInside, leads, ?_⟩
  intro source character isState inside leadsToo
  have otherListed := mem_rules_explore.mpr ⟨mem_states_toDfa.mp isState, inside, leadsToo⟩
  rw [states_toDfa]
  rw [rules_eq] at inOrder otherListed
  rcases List.mem_append.mp otherListed with isBefore | isSameOrAfter
  · simpa using noneBefore _ isBefore
  · rcases List.mem_cons.mp isSameOrAfter with same | isAfter
    · cases same
      exact Or.inr ⟨rfl, Char.le_refl _⟩
    · rcases (List.pairwise_cons.mp (List.pairwise_append.mp inOrder).2.1).1 _ isAfter with
        earlierSource | ⟨sameSource, earlierSymbol⟩
      · exact Or.inl earlierSource
      · exact Or.inr ⟨sameSource, Std.le_of_lt earlierSymbol⟩

theorem records_determinize (nfa : Nfa) :
    nfa.Records nfa.determinize.events (nfa.explore [nfa.closure nfa.initial]).discoveries := by
  have noted : (nfa.explore [nfa.closure nfa.initial]).Noted [nfa.closure nfa.initial] :=
    (Exploration.Noted.begin _).run
  have states_eq : (nfa.explore [nfa.closure nfa.initial]).discoveries.map Discovery.state =
      nfa.toDfa.states.tail := by
    have known := noted.known_eq
    rw [List.eraseDups_cons] at known
    rw [states_toDfa, discovered, known]
    rfl
  have events_eq : nfa.determinize.events =
      (nfa.explore [nfa.closure nfa.initial]).discoveries.map Event.discovered ++
        [.determinized nfa.stateCount nfa.toDfa.states.length nfa.toDfa.accepting.length
          (nfa.toDfa.states.length * nfa.alphabet.size)] := by
    have rules := (tabulates_explore nfa [nfa.closure nfa.initial]).length_eq
    rw [states_toDfa, accepting_toDfa_eq_filter, discovered, ← rules]
    rfl
  refine ⟨events_eq, ?_, states_eq, fun discovery listed => ?_, ?_⟩
  · rw [events_eq, List.map_append, List.map_map, ← List.length_tail, ← states_eq,
      List.length_map, ← List.map_const']
    rfl
  · exact isEarliest_of_first (noted.first discovery listed)
  · rw [events_eq, List.map_append, List.map_map]
    rfl

end Nfa
end FiniteAutomata
