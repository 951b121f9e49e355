import EventSieve.Filter.Domain

/-!
# Finite sets of filter values

A set is the list of its values in strictly ascending order, so the order in
which a clause binds them does not depend on how the set was given. A set is
built by sorting a list and then keeping a value only when it comes after the
last one kept; values that hold one place in the order count once.
-/

namespace EventSieve.Filter

/-- Every value comes before the next one. -/
def Ascending (domain : Domain) : List domain.Carrier → Prop
  | [] => True
  | [_] => True
  | value :: next :: rest =>
    domain.precedes value next = true ∧ Ascending domain (next :: rest)

/-- A finite set of values of a domain. -/
structure ElementSet (domain : Domain) where
  toList : List domain.Carrier
  ascending : Ascending domain toList

namespace ElementSet

variable {domain : Domain}

/-- The values of a list that come after the last one kept, without those that do not. -/
def keepAscending (domain : Domain) (last : domain.Carrier) :
    List domain.Carrier → List domain.Carrier
  | [] => []
  | value :: rest =>
    if domain.precedes last value then value :: keepAscending domain value rest
    else keepAscending domain last rest

/-- What is kept ascends from the last value on. -/
theorem ascending_keepAscending (last : domain.Carrier) (values : List domain.Carrier) :
    Ascending domain (last :: keepAscending domain last values) := by
  induction values generalizing last with
  | nil => trivial
  | cons value rest inductionHypothesis =>
    simp only [keepAscending]
    split
    · rename_i later
      exact ⟨later, inductionHypothesis value⟩
    · exact inductionHypothesis last

/-- The set without values. -/
def empty : ElementSet domain := ⟨[], trivial⟩

/-- The set of the values of a list. -/
def ofList (values : List domain.Carrier) : ElementSet domain :=
  match values.mergeSort domain.upTo with
  | [] => empty
  | value :: rest => ⟨value :: keepAscending domain value rest, ascending_keepAscending value rest⟩

/-- Whether a value is in the set. -/
def contains (set : ElementSet domain) (value : domain.Carrier) : Bool :=
  set.toList.any fun element => domain.same element value

/-- The number of values. -/
def size (set : ElementSet domain) : Nat :=
  set.toList.length

/-- Whether the set has no values. -/
def isEmpty (set : ElementSet domain) : Bool :=
  set.toList.isEmpty

/-- Sets with the same values in order are equal. -/
theorem ext_toList {left right : ElementSet domain} (same : left.toList = right.toList) :
    left = right := by
  cases left; cases right; cases same; rfl

example : (ofList (show List (Domain.text).Carrier from ["b", "a", "b"])).toList = ["a", "b"] := by cbv

end ElementSet

end EventSieve.Filter
