import Mathlib.Data.Finset.Card
import EventSieve.Clause.Basic
import EventSieve.Proofs.Clause.Compilation
import EventSieve.Proofs.Clause.FreshName

/-!
# The search for a name

The search has no bound of its own. It tests the base, and every candidate that is in use
makes it go on with the next number, from two on. It ends all the same: the candidates that
it has left behind are different names in use, so there are no more of them than there are
such names, and the counter stays within two of their number.

Where it ends says what it gives: the base when that is free, and otherwise the base with
the least number that makes it free. `freshName` is this search with its bound written down.
-/

namespace EventSieve.Clause

/-- A search for a name: the candidate that is tested next, and the number of the one after
it. -/
structure NameSearch where
  candidate : String
  number : Nat

namespace NameSearch

/-- A search starts with the base. -/
def start (base : String) : NameSearch :=
  ⟨base, 2⟩

/-- What a search goes on with when its candidate is in use. -/
def next (base : String) (search : NameSearch) : NameSearch :=
  ⟨numbered base search.number, search.number + 1⟩

/-- Where a search may stand after so many tests, which have all found names in use. -/
inductive Reaches (used : List String) (base : String) : Nat → NameSearch → Prop where
  | start : Reaches used base 0 (start base)
  | next {tests : Nat} {search : NameSearch} (reached : Reaches used base tests search)
      (taken : search.candidate ∈ used) : Reaches used base (tests + 1) (search.next base)

/-- A search ends with the first candidate that is not in use; testing it counts too. -/
inductive Ends (used : List String) (base : String) : Nat → String → Prop where
  | free {tests : Nat} {search : NameSearch} (reached : Reaches used base tests search)
      (unused : search.candidate ∉ used) : Ends used base (tests + 1) search.candidate

/-- The candidates of a search in their order. -/
def candidateAt (base : String) : Nat → String
  | 0 => base
  | tests + 1 => numbered base (tests + 2)

section

variable {used : List String} {base name : String} {tests : Nat} {search : NameSearch}

/-- A base differs from itself with a number behind it. -/
theorem ne_numbered (base : String) (number : Nat) : base ≠ numbered base number := by
  intro same
  have lengths := congrArg (fun text => text.toList.length) same
  simp [toList_numbered] at lengths

/-- No candidate comes twice. -/
theorem candidateAt_injective (base : String) : Function.Injective (candidateAt base) := by
  intro left right same
  cases left with
  | zero =>
    cases right with
    | zero => rfl
    | succ right => exact absurd same (ne_numbered base _)
  | succ left =>
    cases right with
    | zero => exact absurd same.symm (ne_numbered base _)
    | succ right =>
      have numbers := numbered_injective base same
      omega

/-- A search goes on from the candidate of one place to that of the next. -/
theorem next_candidateAt (base : String) (tests : Nat) :
    next base ⟨candidateAt base tests, tests + 2⟩ = ⟨candidateAt base (tests + 1), tests + 3⟩ :=
  rfl

/-- After so many tests a search stands at the candidate of that place, and all before it
are in use. A step is only taken from a candidate in use to the next one, so the place of a
search tells all that has been tested; conversely nothing stops a search before such a
place. -/
theorem reaches_iff : Reaches used base tests search ↔
    search = ⟨candidateAt base tests, tests + 2⟩ ∧
      ∀ earlier < tests, candidateAt base earlier ∈ used := by
  constructor
  · intro reached
    induction reached with
    | start => exact ⟨rfl, by simp⟩
    | next reached taken inductionHypothesis =>
      obtain ⟨rfl, before⟩ := inductionHypothesis
      refine ⟨rfl, ?_⟩
      intro earlier within
      rcases Nat.lt_succ_iff_lt_or_eq.mp within with less | rfl
      · exact before earlier less
      · exact taken
  · rintro ⟨rfl, before⟩
    induction tests with
    | zero => exact .start
    | succ tests inductionHypothesis =>
      have reached := inductionHypothesis fun earlier within => before earlier (by omega)
      rw [← next_candidateAt]
      exact .next reached (before tests (by omega))

/-- The candidates that a search has left behind are different names in use. -/
theorem Reaches.tests_le (reached : Reaches used base tests search) :
    tests ≤ used.toFinset.card := by
  obtain ⟨_, before⟩ := reaches_iff.mp reached
  -- the names in use are a set, so they are counted without repetitions
  have all : ∀ earlier < tests, candidateAt base earlier ∈ used.dedup :=
    fun earlier within => List.mem_dedup.mpr (before earlier within)
  rw [List.card_toFinset]
  exact count_le_of_used (candidateAt_injective base) all

/-- The counter never gets further than two beyond the number of names in use. -/
theorem Reaches.number_le (reached : Reaches used base tests search) :
    search.number ≤ used.toFinset.card + 2 := by
  obtain ⟨rfl, _⟩ := reaches_iff.mp reached
  exact Nat.add_le_add_right reached.tests_le 2

/-- A search ends with one candidate more than there are names in use, at the latest. -/
theorem Ends.tests_le (ended : Ends used base tests name) : tests ≤ used.toFinset.card + 1 := by
  obtain ⟨reached, _⟩ := ended
  exact Nat.add_le_add_right reached.tests_le 1

/-- A search ends with the first candidate that is free, and has tested as many as its place
says. Without a test the candidate is the base; behind it the candidates are numbered from
two on, so the number of tests and the number in the name are the same. -/
theorem ends_iff : Ends used base tests name ↔ FirstFree used base tests name := by
  constructor
  · rintro ⟨reached, unused⟩
    rename_i tests search
    obtain ⟨rfl, before⟩ := reaches_iff.mp reached
    cases tests with
    | zero => exact .own unused
    | succ tests =>
      refine .counted (before 0 (by omega)) (by omega) unused ?_
      intro earlier low less
      obtain ⟨place, rfl⟩ : ∃ place, earlier = place + 2 := ⟨earlier - 2, by omega⟩
      exact before (place + 1) (by omega)
  · rintro (⟨unused⟩ | ⟨taken, low, unused, least⟩)
    · exact .free .start unused
    · obtain ⟨place, rfl⟩ : ∃ place, tests = place + 2 := ⟨tests - 2, by omega⟩
      refine .free (reaches_iff.mpr ⟨rfl, ?_⟩) unused
      intro earlier within
      cases earlier with
      | zero => exact taken
      | succ earlier => exact least (earlier + 2) (by omega) (by omega)

end

end NameSearch

/-- The base of the names that a column gets with a suffix. -/
def baseName (column suffix : String) : String :=
  parameterStem column ++ suffix

/-- Takes a name that is not in use for a column and a suffix: the name, and the names in use
with it. -/
def takeName (used : List String) (column suffix : String) : String × List String :=
  (freshName used (baseName column suffix), freshName used (baseName column suffix) :: used)

/-- The suffixes of the names that a comparison takes, in their order. -/
def suffixes : Comparison → List String
  | .never => []
  | .membership _ _ => ["_list"]
  | .between _ _ _ => ["_min", "_max"]
  | .minimum _ _ => ["_min"]
  | .maximum _ _ => ["_max"]

/-- The names in use when a condition has taken its names. -/
def namesWith (used : List String) (condition : Condition) : List String :=
  (suffixes condition.comparison).foldl
    (fun names suffix => (takeName names condition.binding.column suffix).2) used

/-- A rendered condition has taken its names one after the other, whatever the dialect. -/
theorem names_render (dialect : Dialect) (before : Nat) (used : List String)
    (condition : Condition) :
    (render dialect before used condition).names ++ used = namesWith used condition := by
  obtain ⟨binding, comparison⟩ := condition
  cases comparison with
  | never => rfl
  | membership mode values => cases dialect <;> rfl
  | between mode minimum maximum => rfl
  | minimum mode bound => rfl
  | maximum mode bound => rfl

/-- Rendering conditions one after the other takes their names one after the other. -/
theorem names_renderAll (dialect : Dialect) (before : Nat) (used : List String)
    (conditions : List Condition) :
    ((renderAll dialect before used conditions).map (·.names)).reverse.flatten ++ used =
      conditions.foldl namesWith used := by
  induction conditions generalizing before used with
  | nil => rfl
  | cons condition rest inductionHypothesis =>
    rw [renderAll, List.map_cons, List.reverse_cons, List.flatten_append, List.append_assoc,
      List.flatten_cons, List.flatten_nil, List.append_nil, names_render, List.foldl_cons]
    exact inductionHypothesis _ (namesWith used condition)

/-- A condition takes two names at most. -/
theorem length_namesWith_le (used : List String) (condition : Condition) :
    (namesWith used condition).length ≤ used.length + 2 := by
  obtain ⟨binding, comparison⟩ := condition
  cases comparison <;> simp [namesWith, suffixes, takeName]

/-- Conditions take two names each at most. -/
theorem length_foldl_namesWith_le (used : List String) (conditions : List Condition) :
    (conditions.foldl namesWith used).length ≤ used.length + 2 * conditions.length := by
  induction conditions generalizing used with
  | nil => exact Nat.le_refl _
  | cons condition rest inductionHypothesis =>
    have first := length_namesWith_le used condition
    have later := inductionHypothesis (namesWith used condition)
    simp only [List.foldl_cons, List.length_cons]
    omega

open NameSearch

/-- In the clause of a collection there are nine fields with two names each at most, so no
search among its names counts any further than twenty. So the search could be stopped there
in practice, although nothing in its definition says so. A candidate is passed only when it
is one of at most eighteen names. -/
theorem number_le_twenty {dialect : Dialect} {bindings : Bindings} {collection : FilterCollection}
    {conditions : List Condition} {used : List String} {base : String} {tests : Nat}
    {search : NameSearch}
    (compiled : Condition.ofCollection bindings collection = .ok conditions)
    (among : ∀ name ∈ used, ∃ fragment ∈ renderAll dialect 0 [] conditions, name ∈ fragment.names)
    (reached : Reaches used base tests search) : search.number ≤ 20 := by
  have fields : conditions.length ≤ 9 := by
    rw [← (Condition.forall₂_activeFields compiled).length_eq]
    exact List.length_filter_le _ Filter.Field.all
  have names := length_foldl_namesWith_le [] conditions
  have inside : used.toFinset ⊆ (conditions.foldl namesWith []).toFinset := by
    intro name member
    obtain ⟨fragment, present, own⟩ := among name (List.mem_toFinset.mp member)
    rw [List.mem_toFinset, ← names_renderAll dialect 0 [] conditions, List.append_nil]
    exact List.mem_flatten.mpr
      ⟨_, List.mem_reverse.mpr (List.mem_map_of_mem present), own⟩
  have few := (Finset.card_le_card inside).trans (List.toFinset_card_le _)
  have bound := reached.number_le
  simp only [List.length_nil] at names
  omega

/-- Taking a name ends after testing one candidate more than there are names in use at the
latest, in one way only: with the base when that is free, and otherwise with the base with
the least number from two on that makes it free. The name was not in use, and it is all that
comes into use.

Proof: the search is a step relation without any bound. Among one candidate more than there
are names in use at least one is free, since candidates differ, so a first free one exists;
the search ends there and nowhere else. The bounded definition returns this candidate,
because its bound is not reached before. -/
theorem taking_names_ends_fresh (used : List String) (column suffix : String) :
    ∃ tests ≤ used.toFinset.card + 1,
      (∀ count name, Ends used (baseName column suffix) count name ↔
        count = tests ∧ name = (takeName used column suffix).1) ∧
      FirstFree used (baseName column suffix) tests (takeName used column suffix).1 ∧
      (takeName used column suffix).1 ∉ used ∧
      ∀ other, other ∈ (takeName used column suffix).2 ↔
        other = (takeName used column suffix).1 ∨ other ∈ used := by
  obtain ⟨tests, found⟩ := exists_firstFree used (baseName column suffix)
  refine ⟨tests, (ends_iff.mpr found).tests_le, ?_, found, freshName_not_mem used _,
    fun other => List.mem_cons⟩
  intro count name
  rw [ends_iff]
  constructor
  · intro other
    exact other.unique found
  · rintro ⟨rfl, rfl⟩
    exact found

example : takeName ["a_min_2", "b", "a_min"] "a" "_min" =
    ("a_min_3", ["a_min_3", "a_min_2", "b", "a_min"]) := by decide +kernel

end EventSieve.Clause
