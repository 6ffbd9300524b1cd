namespace FiniteAutomata

universe u v

/-!
# Dictionaries

A dictionary holds at most one value for a key.  Two dictionaries are told apart by what they
hold alone (`get?`), so the order in which values were put in is of no importance.
-/

/-- A finite map, as the list of its entries.  An entry hides the later ones for its key. -/
structure Dictionary (Key : Type u) (Value : Type v) where
  entries : List (Key × Value)

namespace Dictionary

variable {Key : Type u} {Value : Type v}

def empty : Dictionary Key Value := ⟨[]⟩

variable [DecidableEq Key]

/-- What the dictionary holds for a key. -/
def get? (dictionary : Dictionary Key Value) (key : Key) : Option Value :=
  dictionary.entries.lookup key

/-- The dictionary with another value for one key. -/
def insert (dictionary : Dictionary Key Value) (key : Key) (value : Value) :
    Dictionary Key Value :=
  ⟨(key, value) :: dictionary.entries⟩

@[simp]
theorem get?_empty (key : Key) : (empty : Dictionary Key Value).get? key = none :=
  rfl

@[simp]
theorem get?_insert (dictionary : Dictionary Key Value) (key other : Key) (value : Value) :
    (dictionary.insert key value).get? other =
      if other = key then some value else dictionary.get? other := by
  by_cases same : other = key
  · simp [get?, insert, same]
  · have differs : (other == key) = false := beq_eq_false_iff_ne.mpr same
    simp [get?, insert, List.lookup_cons, same, differs]

end Dictionary

end FiniteAutomata
