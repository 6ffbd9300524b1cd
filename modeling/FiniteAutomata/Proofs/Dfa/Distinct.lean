import FiniteAutomata.Proofs.Dfa.Validation

namespace FiniteAutomata

universe u v

/-!
# Tables with one rule for each state and character

A list of rules is distinct if no two of them are for the same state and character.
Then a table can be put together from it in either way: no rule is dropped, none is
refused, and every rule finds the place for its state and character empty.  The table
lists the rules as they were given, and counting the rules for a state and a character
gives at most one.  The same holds with an index: the rules are pushed one after the other,
whether or not anything is looked up before.
-/

/-- The state and the symbol for which a transition can be made. -/
def Transition.trigger {State : Type u} {Label : Type v} (transition : Transition State Label) :
    State × Label :=
  (transition.source, transition.symbol)

theorem Transition.appliesTo_iff_trigger {State : Type u} {Label : Type v} [DecidableEq State]
    [DecidableEq Label] {transition : Transition State Label} {state : State} {symbol : Label} :
    transition.appliesTo state symbol = true ↔ transition.trigger = (state, symbol) := by
  rw [appliesTo_eq_true, trigger, Prod.mk.injEq]

/-- No two rules are for the same state and character. -/
def Distinct {State : Type u} (rules : List (Rule State)) : Prop :=
  (rules.map Transition.trigger).Nodup

variable {State : Type u} [DecidableEq State]

namespace Distinct

variable {before rules : List (Rule State)} {rule : Rule State}

/-- There is no rule yet where the next rule belongs. -/
theorem ruleFor?_eq_none (distinct : Distinct (before ++ rule :: rules)) :
    Table.ruleFor? ⟨before⟩ rule.source rule.symbol = none := by
  apply Option.map_eq_none_iff.mp
  apply Table.next?_eq_none_iff.mpr
  intro target listed
  rw [Distinct, List.map_append, List.nodup_append] at distinct
  exact distinct.2.2 _ (List.mem_map_of_mem listed) rule.trigger List.mem_cons_self rfl

/-- Whatever else an extension of a table may do, if it appends the rules for which the
table has none, it appends all of them. -/
theorem foldlM_eq_pure {Result : Type u -> Type v} [Monad Result] [LawfulMonad Result]
    {extend : Table State -> Rule State -> Result (Table State)}
    (appends : forall table rule, table.ruleFor? rule.source rule.symbol = none ->
      extend table rule = pure ⟨table.rules ++ [rule]⟩)
    (distinct : Distinct (before ++ rules)) :
    rules.foldlM extend ⟨before⟩ = pure ⟨before ++ rules⟩ := by
  induction rules generalizing before with
  | nil => simp
  | cons rule later inductionHypothesis =>
    have added := appends ⟨before⟩ rule distinct.ruleFor?_eq_none
    rw [List.append_cons] at distinct
    rw [List.foldlM_cons, added, pure_bind, inductionHypothesis distinct, ← List.append_cons]

theorem ofRules_eq (distinct : Distinct rules) : Table.ofRules rules = .ok ⟨rules⟩ := by
  refine foldlM_eq_pure (fun table rule empty => ?_) (show Distinct ([] ++ rules) from distinct)
  rw [Table.add, Table.next?, empty]
  rfl

theorem ofDistinct?_eq (distinct : Distinct rules) :
    Table.ofDistinct? rules = some ⟨rules⟩ := by
  refine foldlM_eq_pure (fun table rule empty => ?_) (show Distinct ([] ++ rules) from distinct)
  rw [Table.addNew?, empty]
  rfl

theorem countP_appliesTo (distinct : Distinct rules) (state : State) (character : Char) :
    rules.countP (fun rule => rule.appliesTo state character) =
      if (state, character) ∈ rules.map Transition.trigger then 1 else 0 := by
  rw [← List.Nodup.count distinct, List.count, List.countP_map]
  apply List.countP_congr
  intro rule _
  rw [Transition.appliesTo_iff_trigger, Function.comp_apply, beq_iff_eq]

end Distinct

/-! ## With an index -/

namespace Rulebook

variable {before rules : List (Rule State)} {book : Rulebook State}

theorem rules_foldl_push (book : Rulebook State) (rules : List (Rule State)) :
    (rules.foldl push book).rules = book.rules ++ rules := by
  induction rules generalizing book with
  | nil => exact (List.append_nil _).symm
  | cons rule later inductionHypothesis =>
    rw [List.foldl_cons, inductionHypothesis, List.append_cons]
    rfl

/-- No rule has been read yet for the state and character of the next one. -/
theorem Represents.ruleFor?_eq_none {rule : Rule State} (represents : Represents before book)
    (distinct : Distinct (before ++ rule :: rules)) :
    book.ruleFor? rule.source rule.symbol = none := by
  have unlisted : book.next? rule.source rule.symbol = none := by
    apply represents.next?_eq_none_iff.mpr
    exact Table.next?_eq_none_iff.mp (Option.map_eq_none_iff.mpr distinct.ruleFor?_eq_none)
  exact Option.map_eq_none_iff.mp unlisted

/-- Whatever else an extension of a rulebook may do, if it pushes the rules for which nothing
is found, it pushes all of them. -/
theorem Represents.foldlM_eq_pure {Result : Type u -> Type v} [Monad Result]
    [LawfulMonad Result] {extend : Rulebook State -> Rule State -> Result (Rulebook State)}
    (pushes : forall book rule, book.ruleFor? rule.source rule.symbol = none ->
      extend book rule = pure (book.push rule))
    (represents : Represents before book) (distinct : Distinct (before ++ rules)) :
    rules.foldlM extend book = pure (rules.foldl Rulebook.push book) := by
  induction rules generalizing before book with
  | nil => rfl
  | cons rule later inductionHypothesis =>
    have isNew := represents.ruleFor?_eq_none distinct
    have pushed := represents.push (Option.map_eq_none_iff.mpr isNew)
    rw [List.append_cons] at distinct
    rw [List.foldlM_cons, pushes book rule isNew, pure_bind]
    exact inductionHypothesis pushed distinct

/-- What is to become of rules if they are put together with an index: none of them is
dropped or refused, and the index leads to what is found in the table that lists them. -/
structure Indexes (rules : List (Rule State)) (table : Table State) : Prop where
  /-- The promise that the rules are for different states and characters is kept. -/
  ofDistinct?_eq : ofDistinct? rules = some (ofDistinct rules)
  /-- To compare the rules with each other gives the same rulebook. -/
  ofRules_eq : ofRules rules = .ok (ofDistinct rules)
  table_eq : (ofDistinct rules).table = table
  ruleFor?_eq : forall state character,
    (ofDistinct rules).ruleFor? state character = table.ruleFor? state character

theorem indexes_of_distinct (distinct : Distinct rules) : Indexes rules ⟨rules⟩ := by
  have distinctFromNothing : Distinct ([] ++ rules) := distinct
  have accepted : ofRules rules = .ok (ofDistinct rules) := by
    refine represents_empty.foldlM_eq_pure (fun book rule isNew => ?_) distinctFromNothing
    rw [add, isNew]
    rfl
  have table_eq : (ofDistinct rules).table = ⟨rules⟩ :=
    congrArg Table.mk (rules_foldl_push empty rules)
  refine ⟨?_, accepted, table_eq, fun state character => ?_⟩
  · refine represents_empty.foldlM_eq_pure (fun book rule isNew => ?_) distinctFromNothing
    rw [addNew?, isNew]
    rfl
  · rw [(represents_of_ofRules accepted).ruleFor?_eq, table_eq]

end Rulebook

end FiniteAutomata
