import FiniteAutomata.Dfa.Path
import FiniteAutomata.Proofs.Dfa.Validation

namespace FiniteAutomata

universe u

/-!
# A run follows the only path that reads its word

Where the rules are deterministic, at most one path leaves a state and reads a given word.
A run is where this path leads, and it is dead if there is none.  To stop looking at a word
when the run has died makes no difference, because a dead run stays dead whatever is read.
-/

variable {State : Type u}

namespace Table

/-- The first rule of a path reads the first character. -/
theorem path_cons_iff {table : Table State} {source target : State} {character : Char}
    {rest : Word} :
    table.Path source (character :: rest) target ↔
      exists middle, ⟨source, character, middle⟩ ∈ table.rules ∧
        table.Path middle rest target := by
  constructor
  · intro path
    cases path with
    | read listed later => exact ⟨_, listed, later⟩
  · rintro ⟨middle, listed, later⟩
    exact Path.read listed later

theorem path_nil_iff {table : Table State} {source target : State} :
    table.Path source [] target ↔ source = target := by
  constructor
  · intro path
    cases path
    rfl
  · rintro rfl
    exact Path.stay source

end Table

namespace Dfa

variable [DecidableEq State] {dfa : Dfa State}

/-! ## Reading -/

/-- A run that reads a word at once is where it is after reading the characters one after
the other. -/
theorem readWord_eq_foldl (dfa : Dfa State) (current : Option State) (word : Word) :
    dfa.readWord current word = word.foldl dfa.read current := by
  induction word generalizing current with
  | nil => cases current <;> rfl
  | cons character rest inductionHypothesis =>
    rw [List.foldl_cons, ← inductionHypothesis]
    cases current with
    | none => rw [readWord_none, read, Option.bind_none, readWord_none]
    | some state => rfl

theorem readWord_append (dfa : Dfa State) (current : Option State) (left right : Word) :
    dfa.readWord current (left ++ right) = dfa.readWord (dfa.readWord current left) right := by
  simp only [readWord_eq_foldl, List.foldl_append]

/-! ## Paths -/

theorem readWord_eq_some_iff_path (deterministic : Deterministic dfa.table.rules)
    {state target : State} {word : Word} :
    dfa.readWord (some state) word = some target ↔ dfa.table.Path state word target := by
  induction word generalizing state with
  | nil => rw [readWord, Table.path_nil_iff, Option.some.injEq]
  | cons character rest inductionHypothesis =>
    rw [readWord_cons, Table.path_cons_iff]
    cases followed : dfa.table.next? state character with
    | none =>
      have unlisted := Table.next?_eq_none_iff.mp followed
      rw [readWord_none]
      constructor
      · intro alive
        cases alive
      · rintro ⟨middle, listed, _⟩
        exact absurd listed (unlisted middle)
    | some middle =>
      rw [inductionHypothesis]
      constructor
      · intro path
        exact ⟨middle, (Table.next?_eq_some_iff deterministic).mp followed, path⟩
      · rintro ⟨other, listed, path⟩
        rw [(Table.next?_eq_some_iff deterministic).mpr listed] at followed
        cases followed
        exact path

theorem readWord_eq_none_iff (deterministic : Deterministic dfa.table.rules) {state : State}
    {word : Word} :
    dfa.readWord (some state) word = none ↔ forall target, ¬ dfa.table.Path state word target := by
  simp only [← readWord_eq_some_iff_path deterministic]
  exact Option.eq_none_iff_forall_ne_some

/-! ## Whole runs -/

/-- What the runs of an automaton are to be if it is made of a rulebook and of states that
accept. -/
structure FollowsPaths (book : Rulebook State) (accepting : List State) (dfa : Dfa State) :
    Prop where
  /-- A run is where the path for its word leads, whatever state it begins in. -/
  readWord_eq_some_iff : forall state word target,
    dfa.readWord (some state) word = some target ↔ book.table.Path state word target
  readWord_eq_none_iff : forall state word,
    dfa.readWord (some state) word = none ↔ forall target, ¬ book.table.Path state word target
  /-- Every character is looked up in the index. -/
  read_eq : forall current character,
    dfa.read current character = current.bind fun state => book.next? state character
  /-- It does not matter whether the characters of a word are read singly or in parts. -/
  readWord_eq_foldl : forall current word,
    dfa.readWord current word = word.foldl dfa.read current
  readWord_append : forall current left right,
    dfa.readWord current (left ++ right) = dfa.readWord (dfa.readWord current left) right
  /-- A dead run stays dead and accepts nothing. -/
  readWord_none : forall word, dfa.readWord none word = none
  isAccepting_none : dfa.isAccepting none = false
  isAccepting_some_iff : forall target,
    dfa.isAccepting (some target) = true ↔ target ∈ accepting
  accepts_iff : forall word, dfa.accepts word = true ↔
    exists target, target ∈ accepting ∧ book.table.Path dfa.start word target

theorem isAccepting_ofTable_iff {start : State} {accepting : List State} {table : Table State}
    {current : Option State} :
    (ofTable start accepting table).isAccepting current = true ↔
      exists target, target ∈ accepting ∧ current = some target := by
  cases current <;> simp [isAccepting, ofTable]

/-- Over a rulebook whose rules were accepted, a run follows the one path that reads its
word, and dies where there is none.  Only the end of the path decides whether the word is
accepted. -/
theorem run_follows_unique_path {rules : List (Rule State)} {book : Rulebook State}
    (accepted : Rulebook.ofRules rules = .ok book) (start : State) (accepting : List State) :
    FollowsPaths book accepting (ofTable start accepting book.table) := by
  have represents := Rulebook.represents_of_ofRules accepted
  have deterministic := represents.deterministic_table
  have leads : forall state word target,
      (ofTable start accepting book.table).readWord (some state) word = some target ↔
        book.table.Path state word target :=
    fun _ _ _ => readWord_eq_some_iff_path deterministic
  refine
    { readWord_eq_some_iff := leads
      readWord_eq_none_iff := fun _ _ => readWord_eq_none_iff deterministic
      read_eq := ?_
      readWord_eq_foldl := readWord_eq_foldl _
      readWord_append := readWord_append _
      readWord_none := readWord_none _
      isAccepting_none := rfl
      isAccepting_some_iff := ?_
      accepts_iff := ?_ }
  · intro current character
    apply Option.bind_congr
    intro state _
    exact (represents.next?_eq state character).symm
  · intro target
    rw [isAccepting_ofTable_iff]
    simp
  · intro word
    rw [accepts, isAccepting_ofTable_iff]
    simp only [leads]

/-- Two states between which a run goes back and forth; the first rule is repeated. -/
def backAndForth : List (Rule StateId) := [⟨0, 'a', 1⟩, ⟨0, 'a', 1⟩, ⟨1, 'b', 0⟩]

/-- The rulebook of these rules, without the repetition. -/
def backAndForthBook : Rulebook StateId :=
  (Rulebook.empty.push ⟨0, 'a', 1⟩).push ⟨1, 'b', 0⟩

theorem ofRules_backAndForth : Rulebook.ofRules backAndForth = .ok backAndForthBook := rfl

theorem run_follows_path_backAndForth :
    Rulebook.ofRules backAndForth = .ok backAndForthBook ∧
      FollowsPaths backAndForthBook [1] (ofTable 0 [1] backAndForthBook.table) :=
  ⟨ofRules_backAndForth, run_follows_unique_path ofRules_backAndForth 0 [1]⟩

/-- The run dies in the middle of the word, although the rest could be read elsewhere. -/
example : (ofTable 0 [1] backAndForthBook.table).readWord (some 0) ['a', 'a', 'b', 'a'] =
    none := by
  decide +kernel

end Dfa
end FiniteAutomata
