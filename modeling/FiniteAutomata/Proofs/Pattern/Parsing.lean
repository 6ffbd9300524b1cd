import FiniteAutomata.Proofs.Pattern.Reading

namespace FiniteAutomata
namespace Pattern

/-!
# Parsing comes to the same as reading

The parser keeps what it has of a text in its pending calls, the reader keeps it in its
groups.  Wherever a phrase begins, one of two things happens.  Either both refuse the text
for the same reason, whatever surrounds the phrase; or the reader goes on where the parser
has stopped, with a group that stands for what has been parsed.

There is one lemma for every kind of phrase, which takes the phrases inside for granted.
The places where a phrase stops are part of it: a repetition takes all its stars, a sequence
stops before a bar or where a choice does, and a choice stops before a closing bracket or at
the end of the text.  This is why a bracket may be blamed for whatever stands in the place of
the closing one.
-/

/-! ## What a group has of a sequence and of a choice -/

theorem Group.getD_branch? (group : Group) : group.branch?.getD empty = group.branch := by
  rcases group with ⟨branches, items⟩
  cases items with
  | nil => rfl
  | cons latest earlier => rfl

theorem Group.branch?_push (group : Group) (item : Pattern) :
    (group.push item).branch? = some (match group.branch? with
      | none => item
      | some first => concat first item) := by
  rcases group with ⟨branches, items⟩
  cases items with
  | nil => rfl
  | cons latest earlier =>
    exact congrArg some (sequence_reverse_cons (List.cons_ne_nil latest earlier) item)

theorem Group.pattern_eq_choice {before after : Group}
    (branches_eq : after.branches = before.endBranch.branches) :
    after.pattern = choice before.pattern after.branch := by
  unfold Group.pattern
  rw [branches_eq]
  exact alternatives_reverse_cons (List.cons_ne_nil before.branch before.branches) after.branch

namespace Cursor

/-! ## One character ahead -/

theorem nextIf?_nil (position : Nat) (test : Char -> Bool) :
    nextIf? ⟨position, []⟩ test = none :=
  rfl

theorem nextIf?_of_pass {position : Nat} {character : Char} {rest : Word} (test : Char -> Bool)
    (passes : test character = true) :
    nextIf? ⟨position, character :: rest⟩ test =
      some (character, ⟨⟨position + character.utf8Size, rest⟩, Nat.lt_succ_self _⟩) := by
  simp [nextIf?, next?, passes]

theorem nextIf?_of_fail {position : Nat} {character : Char} {rest : Word} (test : Char -> Bool)
    (fails : test character = false) : nextIf? ⟨position, character :: rest⟩ test = none := by
  simp [nextIf?, next?, fails]

/-! ## Phrases and groups -/

/-- The reader goes on at the later place with the group `after` as it does at the earlier one
with the group `before`, whatever surrounds them. -/
def Scans (start : Cursor) (before : Group) (later : Cursor) (after : Group) : Prop :=
  forall enclosing : List (Nat × Group),
    Reader.run ⟨start.position, before, enclosing⟩ start.rest =
      Reader.run ⟨later.position, after, enclosing⟩ later.rest

/-- From the group `before` on, the reader does what the parser has done with a phrase: it
refuses the text as well, or it comes to a group that stands for the pattern at the place where
the phrase ends. -/
inductive Agrees (start : Cursor) (before : Group)
    (stands : Pattern -> Cursor -> Group -> Prop) {origin : Cursor} : origin.Parsed -> Prop where
  | refused {error : SyntaxError} :
      (forall enclosing, Reader.run ⟨start.position, before, enclosing⟩ start.rest =
        .error error) -> Agrees start before stands (.error error)
  | parsed {pattern : Pattern} {last : origin.Onward} {after : Group} :
      Scans start before last.val after -> stands pattern last.val after ->
        Agrees start before stands (.ok (pattern, last))

theorem Agrees.of_scans {start between origin : Cursor} {before group : Group}
    {stands : Pattern -> Cursor -> Group -> Prop} {result : origin.Parsed}
    (agrees : Agrees between group stands result) (scans : Scans start before between group) :
    Agrees start before stands result := by
  cases agrees with
  | refused fault => exact .refused fun enclosing => (scans enclosing).trans (fault enclosing)
  | parsed further done =>
    exact .parsed (fun enclosing => (scans enclosing).trans (further enclosing)) done

/-- If both agree on a phrase and on what follows it, then they agree on the two together. -/
theorem Agrees.bind {start inner outer : Cursor} {before : Group}
    {stands standsLater : Pattern -> Cursor -> Group -> Prop} {first : inner.Parsed}
    {next : Pattern × inner.Onward -> outer.Parsed} (agrees : Agrees start before stands first)
    (follows : forall pattern (last : inner.Onward) after, stands pattern last.val after ->
      Agrees last.val after standsLater (next (pattern, last))) :
    Agrees start before standsLater (first >>= next) := by
  cases agrees with
  | refused fault => exact .refused fault
  | parsed scans done => exact (follows _ _ _ done).of_scans scans

/-- What has been parsed stands at the place that has been reached. -/
theorem Agrees.here {origin last : Cursor} {group : Group} {pattern : Pattern}
    {stands : Pattern -> Cursor -> Group -> Prop}
    {isOnward : last.rest.length ≤ origin.rest.length} (done : stands pattern last group) :
    Agrees last group stands (.ok (pattern, ⟨last, isOnward⟩) : origin.Parsed) :=
  .parsed (fun _ => rfl) done

/-! ## Where phrases stop -/

/-- Neither a character of a choice nor a bar follows: the text ends or a bracket is closed. -/
def StopsChoice (cursor : Cursor) : Prop :=
  cursor.rest = [] ∨ exists rest, cursor.rest = ')' :: rest

def StopsSequence (cursor : Cursor) : Prop :=
  cursor.StopsChoice ∨ exists rest, cursor.rest = '|' :: rest

def StopsRepetition (cursor : Cursor) : Prop := forall rest, cursor.rest ≠ '*' :: rest

/-- The group stands for a choice that has been parsed. -/
structure IsChoice (pattern : Pattern) (last : Cursor) (group : Group) : Prop where
  pattern_eq : group.pattern = pattern
  stops : last.StopsChoice

/-- The group stands for a sequence that has been parsed behind the given branches. -/
structure IsSequence (branches : List Pattern) (pattern : Pattern) (last : Cursor)
    (group : Group) : Prop where
  branches_eq : group.branches = branches
  branch_eq : group.branch = pattern
  stops : last.StopsSequence

/-- The repetition that has been parsed is an item more. -/
structure IsRepetition (before : Group) (pattern : Pattern) (last : Cursor)
    (group : Group) : Prop where
  group_eq : group = before.push pattern
  stops : last.StopsRepetition

/-! ## One lemma for each kind of phrase -/

theorem scans_parseStars (before : Group) (pattern : Pattern) (cursor : Cursor) :
    Scans cursor (before.push pattern) (parseStars pattern cursor).2.val
        (before.push (parseStars pattern cursor).1) ∧
      (parseStars pattern cursor).2.val.StopsRepetition := by
  rcases cursor with ⟨position, rest⟩
  induction rest generalizing pattern position with
  | nil =>
    rw [parseStars, nextIf?_nil]
    exact ⟨fun _ => rfl, fun _ => nofun⟩
  | cons character rest inductionHypothesis =>
    by_cases isStar : character = '*'
    · subst isStar
      rw [parseStars, nextIf?_of_pass (· == '*') rfl]
      rcases inductionHypothesis (star pattern) (position + '*'.utf8Size) with ⟨scans, stops⟩
      exact ⟨fun enclosing => (Reader.run_cons _ _ _).trans (scans enclosing), stops⟩
    · rw [parseStars, nextIf?_of_fail (· == '*') (beq_false_of_ne isStar)]
      exact ⟨fun _ => rfl, fun _ same => isStar (List.cons.inj same).1⟩

/-- Parser and reader agree on a choice that begins at the given place. -/
def ChoiceAgrees (cursor : Cursor) : Prop :=
  Agrees cursor {} IsChoice cursor.parseChoice

/-- They agree on further branches, whatever has been read of the choice. -/
def BranchesAgree (cursor : Cursor) : Prop :=
  forall group : Group, cursor.StopsSequence ->
    Agrees cursor group IsChoice (cursor.parseBranches group.pattern)

/-- They agree on further items, whatever has been read of the sequence. -/
def ItemsAgree (cursor : Cursor) : Prop :=
  forall group : Group, (group.items = [] ∨ cursor.StopsRepetition) ->
    Agrees cursor group (IsSequence group.branches) (cursor.parseItems group.branch?)

/-- They agree on a repetition of which the first character stands before the given place. -/
def RepetitionAgrees (cursor : Cursor) : Prop :=
  forall position character group, cursor.position = position + character.utf8Size ->
    character ≠ '|' -> character ≠ ')' -> (character = '*' -> group.items = []) ->
      Agrees ⟨position, character :: cursor.rest⟩ group (IsRepetition group)
        (cursor.parseRepetition position character)

/-- They agree on an atom of which the first character stands before the given place. -/
def AtomAgrees (cursor : Cursor) : Prop :=
  forall position character group, cursor.position = position + character.utf8Size ->
    character ≠ '|' -> character ≠ ')' -> (character = '*' -> group.items = []) ->
      Agrees ⟨position, character :: cursor.rest⟩ group
        (fun pattern _ after => after = group.push pattern)
        (cursor.parseAtom position character)

theorem agrees_brackets {cursor : Cursor} (choice : cursor.ChoiceAgrees) {position : Nat}
    (follows : cursor.position = position + '('.utf8Size) (group : Group) :
    Agrees ⟨position, '(' :: cursor.rest⟩ group
      (fun pattern _ after => after = group.push pattern) (cursor.parseAtom position '(') := by
  -- Inside the brackets the reader begins a group of its own.
  have opens : forall enclosing, Reader.run ⟨position, group, enclosing⟩ ('(' :: cursor.rest) =
      Reader.run ⟨cursor.position, {}, (position, group) :: enclosing⟩ cursor.rest := by
    intro enclosing
    rw [Reader.run_cons, follows]
    rfl
  unfold ChoiceAgrees at choice
  rw [parseAtom]
  generalize cursor.parseChoice = result at choice
  cases choice with
  | refused fault => exact .refused fun enclosing => (opens enclosing).trans (fault _)
  | @parsed inner last after scans isChoice =>
    rcases last with ⟨⟨_, rest⟩, _⟩
    rcases isChoice.stops with atEnd | ⟨later, closes⟩
    · subst atEnd
      refine .refused fun enclosing => ?_
      rw [opens, scans]
      rfl
    · subst closes
      refine .parsed (fun enclosing => ?_) (congrArg group.push isChoice.pattern_eq)
      rw [opens, scans, Reader.run_cons]
      rfl

theorem atomAgrees {cursor : Cursor} (choice : cursor.ChoiceAgrees) : cursor.AtomAgrees := by
  intro position character group follows notBar notClosing starFirst
  by_cases isOpening : character = '('
  · subst isOpening
    exact agrees_brackets choice follows group
  · by_cases isStar : character = '*'
    · subst isStar
      rw [parseAtom]
      refine .refused fun enclosing => ?_
      rw [Reader.run_cons, Reader.feed, Group.starLatest?, starFirst rfl]
      rfl
    · have isLiteral : isReserved character = false := by
        simp [isReserved, isOpening, isStar, notBar, notClosing]
      have parsed : cursor.parseAtom position character =
          .ok (literal character, ⟨cursor, Nat.le_refl _⟩) := by
        unfold parseAtom
        split
        · exact absurd rfl isOpening
        · exact absurd rfl isStar
        · rfl
      rw [parsed]
      refine .parsed (fun enclosing => ?_) rfl
      rw [Reader.run_cons, feed_literal _ isLiteral, follows]
      rfl

theorem repetitionAgrees {cursor : Cursor} (atom : cursor.AtomAgrees) :
    cursor.RepetitionAgrees := by
  intro position character group follows notBar notClosing starFirst
  rw [parseRepetition]
  apply (atom position character group follows notBar notClosing starFirst).bind
  intro pattern later after isLonger
  rcases later with ⟨between, isOnward⟩
  subst isLonger
  rcases scans_parseStars group pattern between with ⟨scans, stops⟩
  exact .parsed scans ⟨rfl, stops⟩

theorem itemsAgree {cursor : Cursor}
    (repetition : forall next : Cursor, next.rest.length < cursor.rest.length ->
      next.RepetitionAgrees)
    (later : forall between : Cursor, between.rest.length < cursor.rest.length ->
      between.ItemsAgree) : cursor.ItemsAgree := by
  intro group starFirst
  rcases cursor with ⟨position, rest⟩
  cases rest with
  | nil =>
    rw [parseItems, nextIf?_nil]
    exact .here ⟨rfl, group.getD_branch?.symm, Or.inl (Or.inl rfl)⟩
  | cons character rest =>
    by_cases isBar : character = '|'
    · subst isBar
      rw [parseItems, nextIf?_of_fail _ rfl]
      exact .here ⟨rfl, group.getD_branch?.symm, Or.inr ⟨rest, rfl⟩⟩
    · by_cases isClosing : character = ')'
      · subst isClosing
        rw [parseItems, nextIf?_of_fail _ rfl]
        exact .here ⟨rfl, group.getD_branch?.symm, Or.inl (Or.inr ⟨rest, rfl⟩)⟩
      · have goesOn : (character != '|' && character != ')') = true := by
          simp [isBar, isClosing]
        have noStar : character = '*' -> group.items = [] := by
          intro isStar
          subst isStar
          exact starFirst.resolve_right fun stops => stops rest rfl
        have next : Cursor.RepetitionAgrees ⟨position + character.utf8Size, rest⟩ :=
          repetition _ (Nat.lt_succ_self _)
        rw [parseItems, nextIf?_of_pass _ goesOn]
        apply (next position character group rfl isBar isClosing noStar).bind
        intro item behind after isRepetition
        rcases behind with ⟨between, isOnward⟩
        rcases isRepetition with ⟨isLonger, stops⟩
        subst isLonger
        have items := later between (Nat.lt_succ_of_le isOnward) (group.push item) (Or.inr stops)
        rw [Group.branch?_push] at items
        apply items.bind
        intro pattern last whole isSequence
        exact .here isSequence

theorem branchesAgree {cursor : Cursor}
    (items : forall next : Cursor, next.rest.length < cursor.rest.length -> next.ItemsAgree)
    (later : forall between : Cursor, between.rest.length < cursor.rest.length ->
      between.BranchesAgree) : cursor.BranchesAgree := by
  intro group stops
  rcases cursor with ⟨position, rest⟩
  by_cases isBar : exists rest', rest = '|' :: rest'
  · rcases isBar with ⟨rest, rfl⟩
    have next : Cursor.ItemsAgree ⟨position + '|'.utf8Size, rest⟩ :=
      items _ (Nat.lt_succ_self _)
    have behind : Scans ⟨position, '|' :: rest⟩ group ⟨position + '|'.utf8Size, rest⟩
        group.endBranch :=
      fun _ => Reader.run_cons _ _ _
    rw [parseBranches, nextIf?_of_pass _ rfl]
    apply ((next group.endBranch (Or.inl rfl)).of_scans behind).bind
    intro second behindSecond after isSequence
    rcases behindSecond with ⟨between, isOnward⟩
    have branches := later between (Nat.lt_succ_of_le isOnward) after isSequence.stops
    rw [Group.pattern_eq_choice isSequence.branches_eq, isSequence.branch_eq] at branches
    apply branches.bind
    intro pattern last whole isChoice
    exact .here isChoice
  · have stopsChoice : StopsChoice ⟨position, rest⟩ := stops.resolve_right isBar
    have isLast : nextIf? ⟨position, rest⟩ (· == '|') = none := by
      rcases stopsChoice with atEnd | ⟨closing, closes⟩
      · cases atEnd
        rfl
      · cases closes
        rfl
    rw [parseBranches, isLast]
    exact .here ⟨rfl, stopsChoice⟩

theorem choiceAgrees {cursor : Cursor} (items : cursor.ItemsAgree)
    (branches : forall between : Cursor, between.rest.length ≤ cursor.rest.length ->
      between.BranchesAgree) : cursor.ChoiceAgrees := by
  unfold ChoiceAgrees
  rw [parseChoice]
  apply (items {} (Or.inl rfl)).bind
  intro first behindFirst after isSequence
  rcases behindFirst with ⟨between, isOnward⟩
  have first_eq : after.pattern = first := by
    rw [← isSequence.branch_eq, Group.pattern, isSequence.branches_eq]
    rfl
  have further := branches between isOnward after isSequence.stops
  rw [first_eq] at further
  apply further.bind
  intro pattern last whole isChoice
  exact .here isChoice

/-! ## The whole text -/

/-- Parser and reader agree on everything that can begin at the given place. -/
structure AllAgree (cursor : Cursor) : Prop where
  items : cursor.ItemsAgree
  branches : cursor.BranchesAgree
  choice : cursor.ChoiceAgrees

/-- Behind the first character everything is shorter.  Only a choice begins with a phrase of the
same length, its first sequence, and may go on in the same place with its branches. -/
theorem allAgree (cursor : Cursor) : cursor.AllAgree := by
  induction length : cursor.rest.length using Nat.strongRecOn generalizing cursor with
  | ind bound inductionHypothesis =>
    subst length
    have shorter : forall next : Cursor, next.rest.length < cursor.rest.length -> next.AllAgree :=
      fun next isShorter => inductionHypothesis _ isShorter next rfl
    have items : cursor.ItemsAgree :=
      itemsAgree
        (fun next isShorter => repetitionAgrees (atomAgrees (shorter next isShorter).choice))
        (fun next isShorter => (shorter next isShorter).items)
    have branches : forall between : Cursor, between.rest.length ≤ cursor.rest.length ->
        between.BranchesAgree :=
      fun between isOnward => branchesAgree
        (fun next isShorter => (shorter next (Nat.lt_of_lt_of_le isShorter isOnward)).items)
        (fun next isShorter => (shorter next (Nat.lt_of_lt_of_le isShorter isOnward)).branches)
    exact ⟨items, branches cursor (Nat.le_refl _), choiceAgrees items branches⟩

/-- A choice stops only before a closing bracket or at the end of the text. -/
theorem stopsChoice_of_parseChoice {cursor : Cursor} {pattern : Pattern} {last : cursor.Onward}
    (parsed : cursor.parseChoice = .ok (pattern, last)) : last.val.StopsChoice := by
  have agrees := cursor.allAgree.choice
  rw [ChoiceAgrees, parsed] at agrees
  cases agrees with
  | parsed _ isChoice => exact isChoice.stops

end Cursor

/-- What follows the first choice of a text can only be a closing bracket, which the reader
refuses there too. -/
theorem parse_eq_read (text : String) : parse text = read text.toList := by
  have agrees := (Cursor.allAgree ⟨0, text.toList⟩).choice
  unfold Cursor.ChoiceAgrees at agrees
  unfold parse read
  generalize Cursor.parseChoice ⟨0, text.toList⟩ = result at agrees
  cases agrees with
  | refused fault => exact (fault []).symm
  | @parsed pattern last after scans isChoice =>
    rcases last with ⟨⟨_, rest⟩, _⟩
    refine Eq.trans ?_ (scans []).symm
    rcases isChoice.stops with atEnd | ⟨later, closes⟩
    · subst atEnd
      exact congrArg Except.ok isChoice.pattern_eq.symm
    · subst closes
      rw [Reader.run_cons]
      rfl

end Pattern
end FiniteAutomata
