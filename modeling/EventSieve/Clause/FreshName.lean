import EventSieve.Number.Notation

/-!
# Names that are not in use

A base name that is not in use is taken as it is; otherwise it gets the least
number from two on that makes it a name not in use. Among one candidate more
than there are names in use, one is free, so the search is bounded by the number
of names in use.
-/

namespace EventSieve.Clause

/-- A base name with a number behind it. -/
def numbered (base : String) (number : Nat) : String :=
  base ++ "_" ++ Number.integerText number

/-- The first candidate from a number on that is not in use, after so many more
candidates at the latest. -/
def searchFresh (used : List String) (base : String) : Nat → Nat → String
  | 0, number => numbered base number
  | more + 1, number =>
    if used.contains (numbered base number) then searchFresh used base more (number + 1)
    else numbered base number

/-- A name not in use that is made from a base name. -/
def freshName (used : List String) (base : String) : String :=
  if used.contains base then searchFresh used base used.length 2 else base

/-- A base name that is not in use is taken. -/
theorem freshName_of_unused {used : List String} {base : String}
    (unused : used.contains base = false) : freshName used base = base := by
  simp only [freshName, unused, Bool.false_eq_true, if_false]

example : freshName ["a", "a_2"] "a" = "a_3" := by decide +kernel

end EventSieve.Clause
