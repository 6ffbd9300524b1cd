import FiniteAutomata.Proofs.Determinization.Discovery
import FiniteAutomata.Proofs.Determinization.Table
import Mathlib.Data.List.Induction

namespace FiniteAutomata

open Word (Shortlex ShortlexLe)

/-!
# Sets are discovered in the order of their least words

An exploration from one set follows words: it expands the set of a word on one character
after the other, and the words that it follows in this way come in shortlex order.  A set
becomes known with the first of them that leads to it.  So at any time the known sets
belong to words in ascending order, and whatever word has been followed, the set that it
leads to is known with a word that is not later.

When the exploration has ended, every word over the alphabet is covered by one that is not
later and leads to the same set.  The words of the known sets are therefore the least that
lead to them, and the order of discovery is the order of these words.
-/

namespace Nfa

/-- The words that are followed when the sets of the given words are expanded. -/
def continuations (nfa : Nfa) (words : List Word) : List Word :=
  words.flatMap fun word => nfa.alphabet.toList.map fun character => word ++ [character]

theorem mem_continuations {nfa : Nfa} {words : List Word} {word : Word} :
    word ∈ nfa.continuations words ↔
      exists earlier character, earlier ∈ words ∧ character ∈ nfa.alphabet ∧
        earlier ++ [character] = word := by
  rw [continuations, List.mem_flatMap]
  constructor
  · rintro ⟨earlier, listed, continued⟩
    rcases List.mem_map.mp continued with ⟨character, inAlphabet, same⟩
    exact ⟨earlier, character, listed, inAlphabet, same⟩
  · rintro ⟨earlier, character, listed, inAlphabet, same⟩
    exact ⟨earlier, listed, List.mem_map.mpr ⟨character, inAlphabet, same⟩⟩

end Nfa

namespace Exploration

variable {nfa : Nfa} {start : StateSet}

/-! ## The words of the known sets -/

/-- The known sets are those to which the words in `expanded` and `pending` lead, and the
words in `followed` have been followed. -/
structure Visits (nfa : Nfa) (start : StateSet) (followed expanded pending : List Word)
    (exploration : Exploration) : Prop where
  expanded_eq : exploration.expanded = expanded.map (nfa.advanceWord start)
  pending_eq : exploration.pending = pending.map (nfa.advanceWord start)
  ascending : (expanded ++ pending).Pairwise Shortlex
  nil_mem : [] ∈ expanded ++ pending
  /-- Apart from the empty word, only words that were followed lead to known sets. -/
  followed_of_mem : forall word, word ∈ expanded ++ pending -> word = [] ∨ word ∈ followed
  /-- What a followed word leads to is known with a word that is not later. -/
  covered : forall word, word ∈ followed -> exists least, least ∈ expanded ++ pending ∧
    nfa.advanceWord start least = nfa.advanceWord start word ∧ ShortlexLe least word

variable {followed expanded pending : List Word} {exploration : Exploration}

theorem Visits.known_eq (visits : Visits nfa start followed expanded pending exploration) :
    exploration.known = (expanded ++ pending).map (nfa.advanceWord start) := by
  rw [known, visits.expanded_eq, visits.pending_eq, List.map_append]

theorem Visits.begin (nfa : Nfa) (start : StateSet) :
    Visits nfa start (nfa.continuations []) [] [[]] (Exploration.begin [start]) where
  expanded_eq := rfl
  pending_eq := by simp [Exploration.begin, List.eraseDups_cons, Nfa.advanceWord]
  ascending := List.pairwise_singleton _ _
  nil_mem := List.mem_cons_self
  followed_of_mem := fun _ listed => Or.inl (List.mem_singleton.mp listed)
  covered := fun _ isFollowed => absurd isFollowed List.not_mem_nil

/-- A word that comes after all words that were followed leads to a known set or makes its
set known. -/
theorem Visits.follow (visits : Visits nfa start followed expanded pending exploration)
    {word : Word} {character : Char}
    (latest : forall earlier, earlier ∈ followed -> Shortlex earlier (word ++ [character])) :
    exists pendingNext, Visits nfa start (followed ++ [word ++ [character]]) expanded pendingNext
      (follow nfa (nfa.advanceWord start word) exploration character) := by
  have target_eq := nfa.advanceWord_append_singleton start word character
  have above : forall earlier, earlier ∈ expanded ++ pending ->
      Shortlex earlier (word ++ [character]) := by
    intro earlier listed
    rcases visits.followed_of_mem earlier listed with isNil | isFollowed
    · exact isNil ▸ Word.nil_shortlex word character
    · exact latest earlier isFollowed
  by_cases isKnown : nfa.advance (nfa.advanceWord start word) character ∈ exploration.known
  · rw [follow_of_known isKnown]
    rw [← target_eq, visits.known_eq, List.mem_map] at isKnown
    refine ⟨pending, visits.expanded_eq, visits.pending_eq, visits.ascending, visits.nil_mem,
      ?_, ?_⟩
    · intro earlier listed
      exact (visits.followed_of_mem earlier listed).imp_right (List.mem_append_left _)
    · intro other isFollowed
      rcases List.mem_append.mp isFollowed with wasFollowed | isLatest
      · exact visits.covered other wasFollowed
      · rcases isKnown with ⟨least, listed, sameSet⟩
        rw [List.mem_singleton.mp isLatest]
        exact ⟨least, listed, sameSet, Or.inr (above least listed)⟩
  · rw [follow_of_unknown isKnown]
    refine ⟨pending ++ [word ++ [character]], visits.expanded_eq, ?_, ?_, ?_, ?_, ?_⟩
    · rw [List.map_append, ← visits.pending_eq, List.map_singleton, target_eq]
    · rw [← List.append_assoc, List.pairwise_append]
      refine ⟨visits.ascending, List.pairwise_singleton _ _, fun earlier listed other isLatest => ?_⟩
      exact List.mem_singleton.mp isLatest ▸ above earlier listed
    · rw [← List.append_assoc]
      exact List.mem_append_left _ visits.nil_mem
    · intro other listed
      rw [← List.append_assoc] at listed
      rcases List.mem_append.mp listed with wasListed | isLatest
      · exact (visits.followed_of_mem other wasListed).imp_right (List.mem_append_left _)
      · exact Or.inr (List.mem_append_right _ isLatest)
    · intro other isFollowed
      rw [← List.append_assoc]
      rcases List.mem_append.mp isFollowed with wasFollowed | isLatest
      · rcases visits.covered other wasFollowed with ⟨least, listed, sameSet, notLater⟩
        exact ⟨least, List.mem_append_left _ listed, sameSet, notLater⟩
      · exact ⟨other, List.mem_append_right _ isLatest, rfl, Or.inl rfl⟩

/-- The characters of an ascending list are followed one after the other. -/
theorem Visits.foldl_follow (visits : Visits nfa start followed expanded pending exploration)
    {word : Word} {characters : List Char} (ascending : characters.Pairwise (· < ·))
    (latest : forall earlier, earlier ∈ followed -> forall character, character ∈ characters ->
      Shortlex earlier (word ++ [character])) :
    exists pendingNext, Visits nfa start
      (followed ++ characters.map fun character => word ++ [character]) expanded pendingNext
      (characters.foldl (Exploration.follow nfa (nfa.advanceWord start word)) exploration) := by
  induction characters generalizing followed pending exploration with
  | nil =>
    rw [List.map_nil, List.append_nil]
    exact ⟨pending, visits⟩
  | cons character later inductionHypothesis =>
    rcases List.pairwise_cons.mp ascending with ⟨below, laterAscending⟩
    have comesNext : forall earlier, earlier ∈ followed ->
        Shortlex earlier (word ++ [character]) :=
      fun earlier isFollowed => latest earlier isFollowed character List.mem_cons_self
    rcases visits.follow comesNext with ⟨pendingNext, next⟩
    rw [List.map_cons, List.append_cons, List.foldl_cons]
    apply inductionHypothesis next laterAscending
    intro earlier isFollowed other isLater
    rcases List.mem_append.mp isFollowed with wasFollowed | isLatest
    · exact latest earlier wasFollowed other (List.mem_cons_of_mem _ isLater)
    · rw [List.mem_singleton.mp isLatest]
      exact Word.shortlex_of_lt word (below other isLater)

/-- An expansion follows the continuations of the next word, which come after those of all
earlier words. -/
theorem Visits.step (visits : Visits nfa start (nfa.continuations expanded) expanded pending
    exploration) {next : Exploration} (stepped : exploration.step? nfa = some next) :
    exists expandedNext pendingNext, Visits nfa start (nfa.continuations expandedNext)
      expandedNext pendingNext next := by
  unfold step? at stepped
  split at stepped
  · cases stepped
  · next current later waits =>
    cases stepped
    rw [visits.pending_eq] at waits
    rcases List.map_eq_cons_iff.mp waits with ⟨word, words, rfl, rfl, rfl⟩
    -- Moving the current word to those that are expanded changes no other part.
    have moved : Visits nfa start (nfa.continuations expanded) (expanded ++ [word]) words
        { exploration with
          expanded := exploration.expanded ++ [nfa.advanceWord start word]
          pending := words.map (nfa.advanceWord start) } := by
      refine ⟨?_, rfl, ?_, ?_, ?_, ?_⟩
      · rw [visits.expanded_eq, List.map_append]
        rfl
      all_goals rw [← List.append_cons]
      · exact visits.ascending
      · exact visits.nil_mem
      · exact visits.followed_of_mem
      · exact visits.covered
    have continued : nfa.continuations (expanded ++ [word]) =
        nfa.continuations expanded ++ nfa.alphabet.toList.map fun character =>
          word ++ [character] := by
      rw [Nfa.continuations, List.flatMap_append, List.flatMap_singleton]
      rfl
    refine ⟨expanded ++ [word], ?_⟩
    rw [continued]
    apply moved.foldl_follow nfa.alphabet.ascending
    intro earlier isFollowed character _
    rcases Nfa.mem_continuations.mp isFollowed with ⟨shorter, last, listed, _, rfl⟩
    have before := (List.pairwise_append.mp visits.ascending).2.2 shorter listed word
      List.mem_cons_self
    exact before.append_singleton last character

theorem Visits.run (visits : Visits nfa start (nfa.continuations expanded) expanded pending
    exploration) : exists words, Visits nfa start (nfa.continuations words) words []
      (exploration.run nfa) := by
  fun_induction Exploration.run nfa exploration generalizing expanded pending with
  | case1 exploration stopped =>
    have noneWaits := step?_eq_none stopped
    rw [visits.pending_eq, List.map_eq_nil_iff] at noneWaits
    rw [noneWaits] at visits
    exact ⟨expanded, visits⟩
  | case2 exploration next stepped inductionHypothesis =>
    rcases visits.step stepped with ⟨expandedNext, pendingNext, visitsNext⟩
    exact inductionHypothesis visitsNext

/-! ## When the exploration has ended -/

variable {words : List Word}

/-- Every listed word continues a shorter one by a character of the alphabet. -/
theorem Visits.inAlphabet (visits : Visits nfa start (nfa.continuations words) words []
    exploration) : forall word, word ∈ words -> nfa.InAlphabet word := by
  intro word
  induction word using List.reverseRecOn with
  | nil => exact fun _ => Nfa.inAlphabet_nil nfa
  | append_singleton shorter last inductionHypothesis =>
    intro listed
    rcases visits.followed_of_mem _ (List.mem_append_left [] listed) with isNil | isFollowed
    · exact absurd isNil (List.append_ne_nil_of_right_ne_nil shorter (List.cons_ne_nil last []))
    · rcases Nfa.mem_continuations.mp isFollowed with ⟨earlier, character, continues, inside, same⟩
      rcases List.append_inj' same rfl with ⟨rfl, sameLast⟩
      cases sameLast
      exact (inductionHypothesis continues).append_singleton inside

/-- If a word leads where an earlier one leads, then each of its continuations leads where
the earlier word with the same continuation leads.  So from any word one comes to a listed
one that is not later. -/
theorem Visits.exists_least (visits : Visits nfa start (nfa.continuations words) words []
    exploration) {word : Word} (inside : nfa.InAlphabet word) :
    exists least, least ∈ words ∧ nfa.advanceWord start least = nfa.advanceWord start word ∧
      ShortlexLe least word := by
  have covered := visits.covered
  have nilListed := visits.nil_mem
  rw [List.append_nil] at covered nilListed
  induction word using List.reverseRecOn with
  | nil => exact ⟨[], nilListed, rfl, Or.inl rfl⟩
  | append_singleton shorter last inductionHypothesis =>
    have lastInside := inside last (List.mem_append_right _ List.mem_cons_self)
    have shorterInside : nfa.InAlphabet shorter :=
      fun character member => inside character (List.mem_append_left _ member)
    rcases inductionHypothesis shorterInside with ⟨earlier, listed, sameSet, notLater⟩
    have isFollowed := Nfa.mem_continuations.mpr ⟨earlier, last, listed, lastInside, rfl⟩
    rcases covered _ isFollowed with ⟨least, leastListed, sameTarget, leastNotLater⟩
    refine ⟨least, leastListed, ?_, leastNotLater.trans (notLater.append_singleton last)⟩
    rw [sameTarget, Nfa.advanceWord_append_singleton, Nfa.advanceWord_append_singleton, sameSet]

end Exploration

/-- The word is the first over the alphabet, in shortlex order, after which the automaton is
in the given state. -/
structure Dfa.IsAccessWord {State : Type} [DecidableEq State] (dfa : Dfa State) (state : State)
    (word : Word) : Prop where
  inAlphabet : forall character, character ∈ word -> character ∈ dfa.table.alphabet
  reaches : dfa.readWord (some dfa.start) word = some state
  least : forall other, (forall character, character ∈ other ->
    character ∈ dfa.table.alphabet) -> dfa.readWord (some dfa.start) other = some state ->
      ShortlexLe word other

theorem Dfa.IsAccessWord.unique {State : Type} [DecidableEq State] {dfa : Dfa State}
    {state : State} {first second : Word} (isFirst : dfa.IsAccessWord state first)
    (isSecond : dfa.IsAccessWord state second) : first = second :=
  (isFirst.least second isSecond.inAlphabet isSecond.reaches).antisymm
    (isSecond.least first isFirst.inAlphabet isFirst.reaches)

namespace Nfa

/-! ## Access words -/

/-- A deterministic run over the alphabet is in the set to which the word leads. -/
theorem readWord_toDfa_eq_advanceWord {nfa : Nfa} {word : Word} (inside : nfa.InAlphabet word) :
    nfa.toDfa.readWord (some nfa.toDfa.start) word =
      some (nfa.advanceWord nfa.toDfa.start word) := by
  rw [(runsAgree_of_mem_discovered (start_mem_discovered nfa) rfl word).alive inside,
    ← advanceWord_closure]
  rfl

/-- The listed words are the access words of the known sets. -/
theorem isAccessWord_of_visits {nfa : Nfa} {words : List Word} {exploration : Exploration}
    (visits : Exploration.Visits nfa nfa.toDfa.start (nfa.continuations words) words [] exploration)
    (nodup : exploration.known.Nodup) {word : Word} (listed : word ∈ words) :
    nfa.toDfa.IsAccessWord (nfa.advanceWord nfa.toDfa.start word) word := by
  have inside := visits.inAlphabet word listed
  rw [visits.known_eq, List.append_nil] at nodup
  constructor
  · rw [alphabet_toDfa]
    exact inside
  · exact readWord_toDfa_eq_advanceWord inside
  · intro other otherInside reaches
    rw [alphabet_toDfa] at otherInside
    rw [readWord_toDfa_eq_advanceWord otherInside, Option.some_inj] at reaches
    rcases visits.exists_least otherInside with ⟨least, leastListed, sameSet, notLater⟩
    have same := List.inj_on_of_nodup_map nodup leastListed listed (sameSet.trans reaches)
    exact same ▸ notLater

/-- The states of the deterministic automaton are the sets to which certain words lead, in
ascending order of these words, and these are the access words. -/
theorem exists_accessWords (nfa : Nfa) : exists words : List Word,
    nfa.toDfa.states = words.map (nfa.advanceWord nfa.toDfa.start) ∧
      words.Pairwise Shortlex ∧ [] ∈ words ∧
      forall word, word ∈ words ->
        nfa.toDfa.IsAccessWord (nfa.advanceWord nfa.toDfa.start word) word := by
  rcases (Exploration.Visits.begin nfa nfa.toDfa.start).run with ⟨words, visits⟩
  have known := visits.known_eq
  have ascending := visits.ascending
  have nilListed := visits.nil_mem
  rw [List.append_nil] at known ascending nilListed
  refine ⟨words, ?_, ascending, nilListed, fun word listed => ?_⟩
  · rw [states_toDfa]
    exact known
  · exact isAccessWord_of_visits visits (nodup_known nfa _) listed

/-- Each state of the deterministic automaton has one access word, and the states are listed
in ascending order of their access words, beginning with the start, whose access word is
empty. -/
theorem discovery_in_shortlex_order (nfa : Nfa) :
    nfa.toDfa.states.head? = some nfa.toDfa.start ∧
    nfa.toDfa.IsAccessWord nfa.toDfa.start [] ∧
    (forall state, state ∈ nfa.toDfa.states ->
      exists word, nfa.toDfa.IsAccessWord state word ∧
        forall other, nfa.toDfa.IsAccessWord state other -> other = word) ∧
    nfa.toDfa.states.Pairwise fun earlier later =>
      forall first second, nfa.toDfa.IsAccessWord earlier first ->
        nfa.toDfa.IsAccessWord later second -> Shortlex first second := by
  rcases exists_accessWords nfa with ⟨words, states, ascending, nilListed, isAccessWord⟩
  refine ⟨?_, isAccessWord [] nilListed, ?_, ?_⟩
  · rw [Dfa.states, List.eraseDups_cons]
    rfl
  · rw [states]
    intro state isState
    rcases List.mem_map.mp isState with ⟨word, listed, rfl⟩
    have isLeast := isAccessWord word listed
    exact ⟨word, isLeast, fun other isOther => isOther.unique isLeast⟩
  · rw [states, List.pairwise_map]
    apply ascending.imp_of_mem
    intro earlier later earlierListed laterListed before first second isFirst isSecond
    rw [isFirst.unique (isAccessWord earlier earlierListed),
      isSecond.unique (isAccessWord later laterListed)]
    exact before

/-- The set of state 2 is reached by `a` and the empty set by `b`. -/
theorem discovery_in_shortlex_order_freeCycle :
    freeCycle.toDfa.states = [SortedSet.ofList [0, 1], SortedSet.ofList [2], ∅] ∧
      exists first second, freeCycle.toDfa.IsAccessWord (SortedSet.ofList [2]) first ∧
        freeCycle.toDfa.IsAccessWord ∅ second ∧ Shortlex first second := by
  have states : freeCycle.toDfa.states =
      [SortedSet.ofList [0, 1], SortedSet.ofList [2], ∅] := by
    decide +kernel
  rcases discovery_in_shortlex_order freeCycle with ⟨_, _, accessWords, ascending⟩
  rw [states] at accessWords ascending
  rcases accessWords (SortedSet.ofList [2]) (by simp) with ⟨first, isFirst, _⟩
  rcases accessWords ∅ (by simp) with ⟨second, isSecond, _⟩
  rcases List.pairwise_cons.mp ascending with ⟨_, ascendingRest⟩
  have before := (List.pairwise_cons.mp ascendingRest).1 ∅ List.mem_cons_self
  exact ⟨states, first, second, isFirst, isSecond, before first second isFirst isSecond⟩

end Nfa
end FiniteAutomata
