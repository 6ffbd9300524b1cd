import FiniteAutomata.Proofs.Nfa.Regions
import FiniteAutomata.Proofs.Pattern.Language
import FiniteAutomata.Proofs.Thompson.Isolation

namespace FiniteAutomata
namespace Thompson

open Nfa (Path IsRegion Laps)

/-!
# A fragment recognizes its pattern

Taken by itself a fragment is an automaton, and the paths from its start to its
accepting states read exactly the words of its pattern.  For a sequence a path is
cut where it crosses from the first part to the second, for a choice it never
leaves the part that it enters, and for a repetition it is cut into laps.  In each
case isolation says that the parts are regions of the whole, so that between the
cuts only moves of one part are taken.
-/

/-- A fragment as an automaton of its own. -/
def Fragment.toNfa (fragment : Fragment) (moves : List Move) : Nfa :=
  ⟨fragment.start, SortedSet.ofList fragment.accepting, moves⟩

/-- The words of the pattern are those along the paths from the start to an accepting
state. -/
def Recognizes (fragment : Fragment) (moves : List Move) (pattern : Pattern) : Prop :=
  forall word, pattern.Matches word ↔ exists target, target ∈ fragment.accepting ∧
    Path (fragment.toNfa moves) fragment.start word target

/-! ## Single states and single moves -/

theorem recognizes_empty (start : StateId) : Recognizes ⟨start, [start]⟩ [] .empty := by
  intro word
  constructor
  · intro accepted
    cases accepted
    exact ⟨start, List.mem_cons_self, Path.stay start⟩
  · intro reached
    rcases reached with ⟨target, _, path⟩
    cases path with
    | stay state => exact Pattern.Matches.empty
    | free listed _ => exact absurd listed List.not_mem_nil
    | read listed _ => exact absurd listed List.not_mem_nil

theorem recognizes_literal {character : Char} {start accept : StateId}
    (next : accept.toNat = start.toNat + 1) :
    Recognizes ⟨start, [accept]⟩ [.reading start character accept] (.literal character) := by
  have different : accept ≠ start := by
    intro same
    rw [same] at next
    omega
  intro word
  constructor
  · intro accepted
    cases accepted
    exact ⟨accept, List.mem_cons_self, Path.read List.mem_cons_self (Path.stay accept)⟩
  · intro reached
    rcases reached with ⟨target, accepts, path⟩
    rw [List.mem_singleton.mp accepts] at path
    change Path _ start word accept at path
    cases path with
    | stay => exact absurd rfl different
    | free listed _ => cases List.mem_singleton.mp listed
    | read listed path =>
      cases List.mem_singleton.mp listed
      -- The only move leads to the accepting state, from which nothing leads on.
      cases path with
      | stay => exact Pattern.Matches.literal character
      | free listed _ => cases List.mem_singleton.mp listed
      | read listed _ =>
        cases List.mem_singleton.mp listed
        exact absurd rfl different

/-! ## Sequences -/

section Concat

variable {first second : Fragment} {firstMoves secondMoves : List Move}
  {low middle high : Nat}

theorem region_concat_first (firstIsolated : Isolated first firstMoves low middle)
    (secondIsolated : Isolated second secondMoves middle high) :
    IsRegion
      (Fragment.toNfa ⟨first.start, second.accepting⟩ (firstMoves ++ secondMoves ++
        first.accepting.map fun state => .free state second.start))
      (first.toNfa firstMoves) (Between low middle) first.accepting second.start := by
  intro move listed leaves
  rcases mem_concat_moves.mp listed with isFirst | isSecond | bridge
  · exact Or.inl ⟨isFirst, (firstIsolated.moves_between move isFirst).2⟩
  · have source := (secondIsolated.moves_between move isSecond).1
    exact absurd rfl (leaves.ne source)
  · exact Or.inr bridge

theorem region_concat_second (firstIsolated : Isolated first firstMoves low middle)
    (secondIsolated : Isolated second secondMoves middle high) :
    forall move,
      move ∈ (Fragment.toNfa ⟨first.start, second.accepting⟩ (firstMoves ++ secondMoves ++
        first.accepting.map fun state => .free state second.start)).moves ->
      Between middle high move.source ->
        move ∈ (second.toNfa secondMoves).moves ∧ Between middle high move.target := by
  intro move listed leaves
  rcases mem_concat_moves.mp listed with isFirst | isSecond | ⟨exit, isExit, same⟩
  · have source := (firstIsolated.moves_between move isFirst).1
    exact absurd rfl (source.ne leaves)
  · exact ⟨isSecond, (secondIsolated.moves_between move isSecond).2⟩
  · rw [same] at leaves
    exact absurd rfl ((firstIsolated.accepting_between exit isExit).ne leaves)

theorem Recognizes.concat {firstPattern secondPattern : Pattern}
    (firstIsolated : Isolated first firstMoves low middle)
    (secondIsolated : Isolated second secondMoves middle high)
    (firstRecognizes : Recognizes first firstMoves firstPattern)
    (secondRecognizes : Recognizes second secondMoves secondPattern) :
    Recognizes ⟨first.start, second.accepting⟩
      (firstMoves ++ secondMoves ++
        first.accepting.map fun state => .free state second.start)
      (.concat firstPattern secondPattern) := by
  intro word
  constructor
  · intro accepted
    cases accepted with
    | concat left right =>
      rcases (firstRecognizes _).mp left with ⟨exit, isExit, leftPath⟩
      rcases (secondRecognizes _).mp right with ⟨target, accepts, rightPath⟩
      refine ⟨target, accepts, Path.append (leftPath.of_moves_subset ?_)
        (Path.free ?_ (rightPath.of_moves_subset ?_))⟩
      · exact fun move listed => mem_concat_moves.mpr (Or.inl listed)
      · exact mem_concat_moves.mpr (Or.inr (Or.inr ⟨exit, isExit, rfl⟩))
      · exact fun move listed => mem_concat_moves.mpr (Or.inr (Or.inl listed))
  · intro reached
    rcases reached with ⟨target, accepts, path⟩
    have targetBetween := secondIsolated.accepting_between target accepts
    rcases path.stays_or_exits (region_concat_first firstIsolated secondIsolated)
      firstIsolated.start_between with ⟨stays, _⟩ | ⟨exit, left, right, isExit, split, parts⟩
    · exact absurd rfl (stays.ne targetBetween)
    · rcases parts with ⟨leftPath, crossing⟩
      have rightPath := (crossing.stays (region_concat_second firstIsolated secondIsolated)
        secondIsolated.start_between).2
      rw [split]
      exact Pattern.Matches.concat ((firstRecognizes left).mpr ⟨exit, isExit, leftPath⟩)
        ((secondRecognizes right).mpr ⟨target, accepts, rightPath⟩)

end Concat

/-! ## Choices -/

section Choice

variable {first second : Fragment} {firstMoves secondMoves : List Move}
  {low middle : Nat} {start : StateId}

/-- From the start of a choice a path can only go to the start of one of its parts. -/
theorem leaves_choice (firstIsolated : Isolated first firstMoves low middle)
    (secondIsolated : Isolated second secondMoves middle start.toNat) {move : Move}
    (listed : move ∈ firstMoves ++ secondMoves ++
      [.free start first.start, .free start second.start]) (leaves : move.source = start) :
    move = .free start first.start ∨ move = .free start second.start := by
  rcases mem_choice_moves.mp listed with isFirst | isSecond | added
  · have source := (firstIsolated.moves_between move isFirst).1
    exact absurd leaves (secondIsolated.ne_end source)
  · have source := (secondIsolated.moves_between move isSecond).1
    exact absurd leaves source.ne_end
  · exact added

theorem region_choice_first (firstIsolated : Isolated first firstMoves low middle)
    (secondIsolated : Isolated second secondMoves middle start.toNat) :
    forall move,
      move ∈ (Fragment.toNfa ⟨start, first.accepting ++ second.accepting⟩ (firstMoves ++
        secondMoves ++ [.free start first.start, .free start second.start])).moves ->
      Between low middle move.source ->
        move ∈ (first.toNfa firstMoves).moves ∧ Between low middle move.target := by
  have outside : ¬ Between low middle start := fun inside =>
    absurd rfl (secondIsolated.ne_end inside)
  intro move listed leaves
  rcases mem_choice_moves.mp listed with isFirst | isSecond | same | same
  · exact ⟨isFirst, (firstIsolated.moves_between move isFirst).2⟩
  · have source := (secondIsolated.moves_between move isSecond).1
    exact absurd rfl (leaves.ne source)
  · rw [same] at leaves
    exact absurd leaves outside
  · rw [same] at leaves
    exact absurd leaves outside

theorem region_choice_second (firstIsolated : Isolated first firstMoves low middle)
    (secondIsolated : Isolated second secondMoves middle start.toNat) :
    forall move,
      move ∈ (Fragment.toNfa ⟨start, first.accepting ++ second.accepting⟩ (firstMoves ++
        secondMoves ++ [.free start first.start, .free start second.start])).moves ->
      Between middle start.toNat move.source ->
        move ∈ (second.toNfa secondMoves).moves ∧ Between middle start.toNat move.target := by
  have outside : ¬ Between middle start.toNat start := fun inside =>
    absurd rfl inside.ne_end
  intro move listed leaves
  rcases mem_choice_moves.mp listed with isFirst | isSecond | same | same
  · have source := (firstIsolated.moves_between move isFirst).1
    exact absurd rfl (source.ne leaves)
  · exact ⟨isSecond, (secondIsolated.moves_between move isSecond).2⟩
  · rw [same] at leaves
    exact absurd leaves outside
  · rw [same] at leaves
    exact absurd leaves outside

theorem Recognizes.choice {firstPattern secondPattern : Pattern}
    (firstIsolated : Isolated first firstMoves low middle)
    (secondIsolated : Isolated second secondMoves middle start.toNat)
    (firstRecognizes : Recognizes first firstMoves firstPattern)
    (secondRecognizes : Recognizes second secondMoves secondPattern) :
    Recognizes ⟨start, first.accepting ++ second.accepting⟩
      (firstMoves ++ secondMoves ++ [.free start first.start, .free start second.start])
      (.choice firstPattern secondPattern) := by
  intro word
  constructor
  · intro accepted
    cases accepted with
    | first accepted =>
      rcases (firstRecognizes word).mp accepted with ⟨target, accepts, path⟩
      refine ⟨target, List.mem_append.mpr (Or.inl accepts),
        Path.free (mem_choice_moves.mpr ?_) (path.of_moves_subset ?_)⟩
      · exact Or.inr (Or.inr (Or.inl rfl))
      · exact fun move listed => mem_choice_moves.mpr (Or.inl listed)
    | second accepted =>
      rcases (secondRecognizes word).mp accepted with ⟨target, accepts, path⟩
      refine ⟨target, List.mem_append.mpr (Or.inr accepts),
        Path.free (mem_choice_moves.mpr ?_) (path.of_moves_subset ?_)⟩
      · exact Or.inr (Or.inr (Or.inr rfl))
      · exact fun move listed => mem_choice_moves.mpr (Or.inr (Or.inl listed))
  · intro reached
    rcases reached with ⟨target, accepts, path⟩
    change Path _ start word target at path
    cases path with
    | stay =>
      rcases List.mem_append.mp accepts with inFirst | inSecond
      · have between := firstIsolated.accepting_between start inFirst
        exact absurd rfl (secondIsolated.ne_end between)
      · exact absurd rfl (secondIsolated.accepting_between start inSecond).ne_end
    | free listed path =>
      rcases leaves_choice firstIsolated secondIsolated listed rfl with same | same
      · cases same
        rcases path.stays (region_choice_first firstIsolated secondIsolated)
          firstIsolated.start_between with ⟨ends, inner⟩
        rcases List.mem_append.mp accepts with inFirst | inSecond
        · exact Pattern.Matches.first ((firstRecognizes word).mpr ⟨target, inFirst, inner⟩)
        · exact absurd rfl (ends.ne (secondIsolated.accepting_between target inSecond))
      · cases same
        rcases path.stays (region_choice_second firstIsolated secondIsolated)
          secondIsolated.start_between with ⟨ends, inner⟩
        rcases List.mem_append.mp accepts with inFirst | inSecond
        · exact absurd rfl ((firstIsolated.accepting_between target inFirst).ne ends)
        · exact Pattern.Matches.second ((secondRecognizes word).mpr ⟨target, inSecond, inner⟩)
    | read listed _ =>
      rcases leaves_choice firstIsolated secondIsolated listed rfl with same | same <;> cases same

end Choice

/-! ## Repetitions -/

section Star

variable {part : Fragment} {moves : List Move} {low : Nat} {start : StateId}

theorem region_star (isolated : Isolated part moves low start.toNat) :
    IsRegion
      (Fragment.toNfa ⟨start, start :: part.start :: part.accepting⟩
        (moves ++ .free start part.start ::
          part.accepting.map fun state => .free state part.start))
      (part.toNfa moves) (Between low start.toNat) part.accepting part.start := by
  intro move listed leaves
  rcases mem_star_moves.mp listed with inPart | same | bridge
  · exact Or.inl ⟨inPart, (isolated.moves_between move inPart).2⟩
  · rw [same] at leaves
    exact absurd rfl leaves.ne_end
  · exact Or.inr bridge

/-- From the start of a repetition a path can only go to the start of its body. -/
theorem leaves_star (isolated : Isolated part moves low start.toNat) {move : Move}
    (listed : move ∈ moves ++ .free start part.start ::
      part.accepting.map fun state => .free state part.start) (leaves : move.source = start) :
    move = .free start part.start := by
  rcases mem_star_moves.mp listed with inPart | same | ⟨exit, isExit, same⟩
  · exact absurd leaves (isolated.moves_between move inPart).1.ne_end
  · exact same
  · rw [same] at leaves
    exact absurd leaves (isolated.accepting_between exit isExit).ne_end

/-- Laps through the body read words of the repetition.  A last path that ends in the
start of the body reads nothing, because no move of the body leads there. -/
theorem matches_star_of_laps {pattern : Pattern} {high : Nat}
    (isolated : Isolated part moves low high) (recognizes : Recognizes part moves pattern)
    {source target : StateId} {word : Word}
    (laps : Laps (part.toNfa moves) part.accepting part.start source word target)
    (begins : source = part.start) (ends : target ∈ part.start :: part.accepting) :
    (Pattern.star pattern).Matches word := by
  induction laps with
  | @last source target word path =>
    rcases List.mem_cons.mp ends with atStart | accepts
    · rw [(path.eq_of_not_entered isolated.start_not_entered atStart).2]
      exact Pattern.Matches.stop
    · rw [begins] at path
      have accepted := (recognizes word).mpr ⟨target, accepts, path⟩
      have once := Pattern.Matches.again accepted Pattern.Matches.stop
      rwa [List.append_nil] at once
  | lap isExit path _ inductionHypothesis =>
    rw [begins] at path
    exact Pattern.Matches.again ((recognizes _).mpr ⟨_, isExit, path⟩)
      (inductionHypothesis rfl ends)

/-- Words of the body can be read one after the other. -/
theorem exists_path_of_parts {pattern : Pattern} (recognizes : Recognizes part moves pattern)
    (parts : List Word) (each : forall word, word ∈ parts -> pattern.Matches word) :
    exists target, target ∈ part.start :: part.accepting ∧
      Path (Fragment.toNfa ⟨start, start :: part.start :: part.accepting⟩
        (moves ++ .free start part.start ::
          part.accepting.map fun state => .free state part.start))
        part.start parts.flatten target := by
  induction parts with
  | nil => exact ⟨part.start, List.mem_cons_self, Path.stay _⟩
  | cons word later inductionHypothesis =>
    rcases List.forall_mem_cons.mp each with ⟨accepted, others⟩
    rcases inductionHypothesis others with ⟨target, accepts, laterPath⟩
    rcases (recognizes word).mp accepted with ⟨exit, isExit, path⟩
    refine ⟨target, accepts, Path.append (path.of_moves_subset ?_) (Path.free ?_ laterPath)⟩
    · exact fun move listed => mem_star_moves.mpr (Or.inl listed)
    · exact mem_star_moves.mpr (Or.inr (Or.inr ⟨exit, isExit, rfl⟩))

theorem Recognizes.star {pattern : Pattern} (isolated : Isolated part moves low start.toNat)
    (recognizes : Recognizes part moves pattern) :
    Recognizes ⟨start, start :: part.start :: part.accepting⟩
      (moves ++ .free start part.start ::
        part.accepting.map fun state => .free state part.start) (.star pattern) := by
  intro word
  constructor
  · intro accepted
    rcases Pattern.matches_star_iff.mp accepted with ⟨parts, split, each⟩
    rcases exists_path_of_parts recognizes parts each with ⟨target, accepts, path⟩
    rw [split]
    exact ⟨target, List.mem_cons_of_mem start accepts,
      Path.free (mem_star_moves.mpr (Or.inr (Or.inl rfl))) path⟩
  · intro reached
    rcases reached with ⟨target, accepts, path⟩
    change Path _ start word target at path
    cases path with
    | stay => exact Pattern.Matches.stop
    | free listed path =>
      cases leaves_star isolated listed rfl
      have laps := path.laps (region_star isolated) isolated.start_between
        isolated.start_between
      rcases List.mem_cons.mp accepts with atStart | inBody
      · have unmoved := path.eq_of_not_entered isolated.star.start_not_entered atStart
        exact absurd unmoved.1 (atStart ▸ isolated.start_between.ne_end)
      · exact matches_star_of_laps isolated recognizes laps rfl inBody
    | read listed _ => cases leaves_star isolated listed rfl

end Star

/-- Whatever is built for a pattern recognizes it. -/
theorem Built.recognizes {pattern : Pattern} {low high : Nat} {fragment : Fragment}
    {moves : List Move} (built : Built pattern low high fragment moves) :
    Recognizes fragment moves pattern := by
  induction built with
  | empty => exact recognizes_empty _
  | literal next => exact recognizes_literal next
  | concat first second firstHypothesis secondHypothesis =>
    exact firstHypothesis.concat first.isolated second.isolated secondHypothesis
  | choice first second firstHypothesis secondHypothesis =>
    exact firstHypothesis.choice first.isolated second.isolated secondHypothesis
  | star inner inductionHypothesis => exact inductionHypothesis.star inner.isolated

end Thompson
end FiniteAutomata
