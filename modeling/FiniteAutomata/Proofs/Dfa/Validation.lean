import FiniteAutomata.Dfa.Rulebook
import FiniteAutomata.Proofs.Dfa.Lookup
import FiniteAutomata.Proofs.Occurrences

namespace FiniteAutomata

universe u

/-!
# Which lists of rules are deterministic

A rulebook is put together rule by rule.  As long as no rule contradicts an earlier one, it
represents the rules that were read: it lists each of them where it came first, and its
index leads to the rule that a search would find.  The first rule that contradicts an
earlier one ends the construction and is reported, so the construction succeeds exactly if
the rules are deterministic.
-/

variable {State : Type u}

/-! ## Contradictions -/

/-- One of the earlier rules leads elsewhere from the same state on the same character. -/
def Contradicts (earlier : List (Rule State)) (rule : Rule State) : Prop :=
  exists other, other ∈ earlier ∧ other.source = rule.source ∧ other.symbol = rule.symbol ∧
    other.target ≠ rule.target

/-- The rule is the first one of the list that contradicts a rule before it. -/
def IsFirstConflict (rules : List (Rule State)) (rule : Rule State) : Prop :=
  exists before after, rules = before ++ rule :: after ∧ Contradicts before rule ∧
    forall front other back, before = front ++ other :: back -> ¬ Contradicts front other

namespace Deterministic

variable {before after : List (Rule State)} {rule : Rule State}

theorem nil : Deterministic ([] : List (Rule State)) :=
  fun _ _ listed => absurd listed List.not_mem_nil

theorem of_subset {fewer rules : List (Rule State)} (deterministic : Deterministic rules)
    (subset : forall rule, rule ∈ fewer -> rule ∈ rules) : Deterministic fewer :=
  fun first second firstListed secondListed =>
    deterministic first second (subset first firstListed) (subset second secondListed)

theorem not_contradicts (deterministic : Deterministic (before ++ rule :: after)) :
    ¬ Contradicts before rule := by
  rintro ⟨other, listed, sameSource, sameSymbol, differs⟩
  apply differs
  apply deterministic other rule _ _ sameSource sameSymbol
  · exact List.mem_append_left _ listed
  · exact List.mem_append_right _ List.mem_cons_self

theorem append_singleton (deterministic : Deterministic before)
    (agrees : ¬ Contradicts before rule) : Deterministic (before ++ [rule]) := by
  have agree : forall other, other ∈ before -> other.source = rule.source ->
      other.symbol = rule.symbol -> other.target = rule.target := by
    intro other listed sameSource sameSymbol
    apply Classical.byContradiction
    intro differs
    exact agrees ⟨other, listed, sameSource, sameSymbol, differs⟩
  intro first second firstListed secondListed sameSource sameSymbol
  rcases List.mem_append.mp firstListed with firstEarlier | firstLast <;>
    rcases List.mem_append.mp secondListed with secondEarlier | secondLast
  · exact deterministic first second firstEarlier secondEarlier sameSource sameSymbol
  · cases List.mem_singleton.mp secondLast
    exact agree first firstEarlier sameSource sameSymbol
  · cases List.mem_singleton.mp firstLast
    exact (agree second secondEarlier sameSource.symm sameSymbol.symm).symm
  · cases List.mem_singleton.mp firstLast
    cases List.mem_singleton.mp secondLast
    rfl

end Deterministic

namespace IsFirstConflict

variable {rules before after : List (Rule State)} {rule other : Rule State}

theorem of_contradicts (deterministic : Deterministic before)
    (contradicts : Contradicts before rule) :
    IsFirstConflict (before ++ rule :: after) rule := by
  refine ⟨before, after, rfl, contradicts, ?_⟩
  rintro front earlier back rfl
  exact deterministic.not_contradicts

theorem not_deterministic (isFirst : IsFirstConflict rules rule) : ¬ Deterministic rules := by
  rcases isFirst with ⟨before, after, rfl, contradicts, _⟩
  exact fun deterministic => deterministic.not_contradicts contradicts

theorem unique (isFirst : IsFirstConflict rules rule) (otherIsFirst : IsFirstConflict rules other) :
    rule = other := by
  rcases isFirst with ⟨before, after, split, contradicts, noneBefore⟩
  rcases otherIsFirst with ⟨otherBefore, otherAfter, otherSplit, otherContradicts, noOther⟩
  refine (cut_unique (split.symm.trans otherSplit) ?_ ?_).2
  · intro middle extended _
    exact noOther _ _ _ extended contradicts
  · intro middle extended _
    exact noneBefore _ _ _ extended otherContradicts

end IsFirstConflict

namespace Rulebook

variable [DecidableEq State]

/-! ## One rule more -/

/-- The rulebook holds the rules that were read, and finds them by its index. -/
structure Represents (rules : List (Rule State)) (book : Rulebook State) : Prop where
  /-- Each rule is listed where it came first. -/
  rules_eq : book.rules = rules.eraseDups
  deterministic : Deterministic rules
  /-- The index leads to the rule that a search finds. -/
  ruleFor?_eq : forall state character,
    book.ruleFor? state character = book.table.ruleFor? state character

theorem represents_empty : Represents ([] : List (Rule State)) empty where
  rules_eq := rfl
  deterministic := Deterministic.nil
  ruleFor?_eq := fun _ _ => rfl

namespace Represents

variable {rules : List (Rule State)} {book : Rulebook State} {rule : Rule State}

theorem mem_rules (represents : Represents rules book) :
    rule ∈ book.table.rules ↔ rule ∈ rules := by
  change rule ∈ book.rules ↔ rule ∈ rules
  rw [represents.rules_eq, List.mem_eraseDups]

theorem deterministic_table (represents : Represents rules book) :
    Deterministic book.table.rules :=
  represents.deterministic.of_subset fun _ => represents.mem_rules.mp

theorem next?_eq (represents : Represents rules book) (state : State) (character : Char) :
    book.next? state character = book.table.next? state character := by
  rw [next?, represents.ruleFor?_eq, Table.next?]

theorem next?_eq_some_iff (represents : Represents rules book) {state target : State}
    {character : Char} :
    book.next? state character = some target ↔ ⟨state, character, target⟩ ∈ rules := by
  rw [represents.next?_eq, Table.next?_eq_some_iff represents.deterministic_table,
    represents.mem_rules]

theorem next?_eq_none_iff (represents : Represents rules book) {state : State}
    {character : Char} :
    book.next? state character = none ↔
      forall target, ¬ ⟨state, character, target⟩ ∈ rules := by
  rw [represents.next?_eq, Table.next?_eq_none_iff]
  simp only [represents.mem_rules]

/-- A rule for a state and a character without a rule is pushed. -/
theorem push (represents : Represents rules book)
    (isNew : book.next? rule.source rule.symbol = none) :
    Represents (rules ++ [rule]) (book.push rule) := by
  have unlisted := represents.next?_eq_none_iff.mp isNew
  refine ⟨?_, ?_, fun state character => ?_⟩
  · rw [eraseDups_append_of_not_mem (unlisted rule.target), ← represents.rules_eq]
    rfl
  · apply represents.deterministic.append_singleton
    rintro ⟨⟨source, symbol, target⟩, listed, rfl, rfl, _⟩
    exact unlisted target listed
  · have appended : (book.push rule).table.ruleFor? state character =
        (book.table.ruleFor? state character).or
          (if rule.appliesTo state character then some rule else none) := by
      change (book.rules ++ [rule]).find? _ = _
      rw [List.find?_append, List.find?_singleton]
      rfl
    rw [ruleFor?_push, appended]
    by_cases applies : rule.appliesTo state character = true
    · -- Nothing was found for the rule's own state and character.
      rcases Transition.appliesTo_eq_true.mp applies with ⟨rfl, rfl⟩
      rw [← represents.ruleFor?_eq, Option.map_eq_none_iff.mp isNew]
      simp [applies]
    · simp [applies, represents.ruleFor?_eq]

/-- A rule that was read before changes nothing. -/
theorem repeated (represents : Represents rules book) (listed : rule ∈ rules) :
    Represents (rules ++ [rule]) book where
  rules_eq := represents.rules_eq.trans (eraseDups_append_of_mem listed).symm
  deterministic := by
    apply represents.deterministic.of_subset
    intro other member
    rcases List.mem_append.mp member with isEarlier | isLast
    · exact isEarlier
    · exact List.mem_singleton.mp isLast ▸ listed
  ruleFor?_eq := represents.ruleFor?_eq

/-- One more rule is read, or refused because it contradicts an earlier one. -/
theorem add_cases (represents : Represents rules book) (rule : Rule State) :
    (exists next, book.add rule = .ok next ∧ Represents (rules ++ [rule]) next) ∨
    (Contradicts rules rule ∧ book.add rule = .error ⟨rule.source, rule.symbol⟩) := by
  unfold add
  cases existing : book.ruleFor? rule.source rule.symbol with
  | none =>
    refine Or.inl ⟨book.push rule, rfl, represents.push ?_⟩
    rw [next?, existing, Option.map_none]
  | some earlier =>
    have listed : ⟨rule.source, rule.symbol, earlier.target⟩ ∈ rules := by
      apply represents.next?_eq_some_iff.mp
      rw [next?, existing, Option.map_some]
    simp only
    by_cases sameTarget : earlier.target = rule.target
    · rw [if_pos sameTarget]
      rw [sameTarget] at listed
      exact Or.inl ⟨book, rfl, represents.repeated listed⟩
    · rw [if_neg sameTarget]
      exact Or.inr ⟨⟨_, listed, rfl, rfl, sameTarget⟩, rfl⟩

/-- The rules alone, searched instead of looked up, lead to the same decision. -/
theorem map_table_add (represents : Represents rules book) (rule : Rule State) :
    (book.add rule).map table = book.table.add rule := by
  unfold add Table.add Table.next?
  rw [← represents.ruleFor?_eq]
  cases book.ruleFor? rule.source rule.symbol with
  | none => rfl
  | some earlier =>
    simp only [Option.map_some]
    split <;> rfl

end Represents

/-! ## All rules -/

/-- What may become of a list of rules. -/
inductive Verdict (rules : List (Rule State)) :
    Except (Conflict State) (Rulebook State) -> Prop where
  | accepted {book : Rulebook State} : Represents rules book -> Verdict rules (.ok book)
  | refused {rule : Rule State} : IsFirstConflict rules rule ->
      Verdict rules (.error ⟨rule.source, rule.symbol⟩)

/-- If the rules before are represented, the rest is accepted or refused as it should be,
and searching the rules would not make a difference. -/
theorem Represents.verdict {before : List (Rule State)} {book : Rulebook State}
    (represents : Represents before book) (rest : List (Rule State)) :
    Verdict (before ++ rest) (rest.foldlM add book) ∧
      (rest.foldlM add book).map table = rest.foldlM Table.add book.table := by
  induction rest generalizing before book with
  | nil =>
    rw [List.append_nil]
    exact ⟨Verdict.accepted represents, rfl⟩
  | cons rule later inductionHypothesis =>
    rw [List.foldlM_cons, List.foldlM_cons, ← represents.map_table_add]
    rcases represents.add_cases rule with ⟨next, added, nextRepresents⟩ | ⟨contradicts, refused⟩
    · rw [added, List.append_cons]
      exact inductionHypothesis nextRepresents
    · rw [refused]
      exact ⟨Verdict.refused (.of_contradicts represents.deterministic contradicts), rfl⟩

theorem verdict_ofRules (rules : List (Rule State)) : Verdict rules (ofRules rules) :=
  (represents_empty.verdict rules).1

theorem map_table_ofRules (rules : List (Rule State)) :
    (ofRules rules).map table = Table.ofRules rules :=
  (represents_empty.verdict rules).2

namespace Verdict

variable {rules : List (Rule State)} {rule : Rule State}
  {result : Except (Conflict State) (Rulebook State)}

theorem exists_ok (verdict : Verdict rules result) (deterministic : Deterministic rules) :
    exists book, result = .ok book := by
  cases verdict with
  | accepted _ => exact ⟨_, rfl⟩
  | refused isFirst => exact absurd deterministic isFirst.not_deterministic

theorem eq_error (verdict : Verdict rules result) (isFirst : IsFirstConflict rules rule) :
    result = .error ⟨rule.source, rule.symbol⟩ := by
  cases verdict with
  | accepted represents => exact absurd represents.deterministic isFirst.not_deterministic
  | refused otherIsFirst => rw [otherIsFirst.unique isFirst]

end Verdict

theorem represents_of_ofRules {rules : List (Rule State)} {book : Rulebook State}
    (accepted : ofRules rules = .ok book) : Represents rules book := by
  have verdict := verdict_ofRules rules
  rw [accepted] at verdict
  cases verdict with
  | accepted represents => exact represents

theorem exists_ofRules_eq_ok_iff {rules : List (Rule State)} :
    (exists book, ofRules rules = .ok book) ↔ Deterministic rules := by
  constructor
  · rintro ⟨book, accepted⟩
    exact (represents_of_ofRules accepted).deterministic
  · exact (verdict_ofRules rules).exists_ok

theorem ofRules_eq_error_iff {rules : List (Rule State)} {conflict : Conflict State} :
    ofRules rules = .error conflict ↔
      exists rule, IsFirstConflict rules rule ∧ conflict = ⟨rule.source, rule.symbol⟩ := by
  have verdict := verdict_ofRules rules
  constructor
  · intro failed
    rw [failed] at verdict
    cases verdict with
    | refused isFirst => exact ⟨_, isFirst, rfl⟩
  · rintro ⟨rule, isFirst, rfl⟩
    exact verdict.eq_error isFirst

/-! ## Exactness -/

/-- What a rulebook is to list and to answer if it is made of the given rules. -/
structure Answers (rules : List (Rule State)) (book : Rulebook State) : Prop where
  /-- A rule that repeats an earlier one is dropped, and the others keep their order. -/
  rules_eq : book.rules = rules.eraseDups
  /-- A look-up leads along the rules that were given. -/
  next?_eq_some_iff : forall state character target,
    book.next? state character = some target ↔ ⟨state, character, target⟩ ∈ rules
  next?_eq_none_iff : forall state character, book.next? state character = none ↔
    forall rule, rule ∈ rules -> ¬ (rule.source = state ∧ rule.symbol = character)
  /-- To search the rules comes to the same. -/
  next?_eq : forall state character,
    book.next? state character = book.table.next? state character

theorem Represents.answers {rules : List (Rule State)} {book : Rulebook State}
    (represents : Represents rules book) : Answers rules book where
  rules_eq := represents.rules_eq
  next?_eq_some_iff := fun _ _ _ => represents.next?_eq_some_iff
  next?_eq_none_iff := by
    intro state character
    rw [represents.next?_eq_none_iff]
    constructor
    · rintro unlisted ⟨source, symbol, target⟩ listed ⟨rfl, rfl⟩
      exact unlisted target listed
    · intro noneApplies target listed
      exact noneApplies _ listed ⟨rfl, rfl⟩
  next?_eq := represents.next?_eq

/-- A rulebook is made of a list of rules exactly if no two of them are for the same state
and character and lead to different states.  Its answers are then the rules of the list.
Otherwise the first rule that contradicts an earlier one is reported, by its state and its
character.  A table without an index is made of the same rules and refused for the same
reason. -/
theorem construction_reports_first_conflict [Quoted State] (rules : List (Rule State)) :
    ((exists book, ofRules rules = .ok book) ↔ Deterministic rules) ∧
    (forall book, ofRules rules = .ok book -> Answers rules book) ∧
    (forall conflict, ofRules rules = .error conflict ↔
      exists rule, IsFirstConflict rules rule ∧ conflict = ⟨rule.source, rule.symbol⟩) ∧
    (forall rule, IsFirstConflict rules rule ->
      (ofRules rules).mapError Conflict.message =
        .error ("conflicting rules for state " ++ Quoted.quoted rule.source ++ " on " ++
          Text.quotedChar rule.symbol)) ∧
    (ofRules rules).map table = Table.ofRules rules := by
  refine ⟨exists_ofRules_eq_ok_iff, ?_, fun _ => ofRules_eq_error_iff, ?_, map_table_ofRules rules⟩
  · intro book accepted
    exact (represents_of_ofRules accepted).answers
  · intro rule isFirst
    rw [(verdict_ofRules rules).eq_error isFirst]
    rfl

/-- The repeated rule is not in the way, and of the two contradictions the first is reported. -/
example : (ofRules [⟨1, 'a', 2⟩, ⟨1, 'b', 2⟩, ⟨1, 'a', 2⟩, ⟨1, 'b', 3⟩, ⟨1, 'a', 4⟩] :
    Except (Conflict StateId) _).map Rulebook.rules = .error ⟨1, 'b'⟩ :=
  rfl

end Rulebook
end FiniteAutomata
