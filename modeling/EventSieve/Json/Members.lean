import EventSieve.Json.Value
import Std.Data.TreeMap

/-!
# Members of objects

An object keeps its members in the order in which their keys first appeared, and
each key stands once: giving a key a second value replaces the first one where it
stands. `put` says so for one key. `ofPairs` builds the members that a whole row
of pairs denotes: it collects the last value of every key in a table and hands
the values out along the pairs, each to the first pair that asks for it. So it
looks at every pair twice, however many keys there are, and
`ofPairs_eq_putAll` says that putting one pair after the other gives the same.
-/

namespace EventSieve.Json

/-- The value of a key. -/
def lookup (key : String) : Members → Option Json
  | [] => none
  | (name, value) :: rest => if name = key then some value else lookup key rest

/-- Gives a key a value: in its old place when it has one, else at the end. -/
def put (key : String) (value : Json) : Members → Members
  | [] => [(key, value)]
  | (name, old) :: rest =>
    if name = key then (name, value) :: rest else (name, old) :: put key value rest

/-- Gives every key of a second list of members its value there, in order. -/
def putAll (members additions : Members) : Members :=
  additions.foldl (fun merged member => put member.1 member.2 merged) members

/-- The last value of every key. -/
abbrev Latest := Std.TreeMap String Json

/-- The last values after some more pairs. -/
def lastValues (latest : Latest) (pairs : Members) : Latest :=
  pairs.foldl (fun latest pair => latest.insert pair.1 pair.2) latest

/-- Hands values out along a row of pairs. A key that has got its value, or has
none, is passed over. -/
def handOut (latest : Latest) : Members → Members
  | [] => []
  | (key, _) :: rest =>
    match latest[key]? with
    | some value => (key, value) :: handOut (latest.erase key) rest
    | none => handOut latest rest

/-- The members that a row of pairs denotes: later values win, first places stay. -/
def ofPairs (pairs : Members) : Members :=
  handOut (lastValues ∅ pairs) pairs

/-- Reading a key that was just written gives the written value. -/
theorem lookup_put_same (key : String) (value : Json) (members : Members) :
    lookup key (put key value members) = some value := by
  induction members with
  | nil => simp [put, lookup]
  | cons member rest inductionHypothesis =>
    by_cases same : member.1 = key
    · simp [put, lookup, same]
    · simp [put, lookup, same, inductionHypothesis]

/-- Writing a key leaves every other key alone. -/
theorem lookup_put_other {key other : String} (different : key ≠ other) (value : Json)
    (members : Members) : lookup other (put key value members) = lookup other members := by
  induction members with
  | nil => simp [put, lookup, different]
  | cons member rest inductionHypothesis =>
    by_cases same : member.1 = key
    · have apart : member.1 ≠ other := fun equal => different (same.symm.trans equal)
      simp [put, lookup, same, different]
    · simp [put, lookup, same, inductionHypothesis]

/-- The value of the last pair with a key. -/
def lastValue? (key : String) : Members → Option Json
  | [] => none
  | (name, value) :: rest => (lastValue? key rest).or (if name = key then some value else none)

/-- The pairs with other keys. -/
def without (key : String) (pairs : Members) : Members :=
  pairs.filter fun pair => pair.1 != key

/-- Leaving out a key looks at one pair after the other. -/
theorem without_cons (key : String) (pair : String × Json) (rest : Members) :
    without key (pair :: rest) =
      if pair.1 = key then without key rest else pair :: without key rest := by
  by_cases same : pair.1 = key <;> simp [without, same]

/-- Collecting pairs gives every key its last value there, and leaves the value of
a key without a pair. -/
theorem getElem?_lastValues (latest : Latest) (pairs : Members) (key : String) :
    (lastValues latest pairs)[key]? = (lastValue? key pairs).or latest[key]? := by
  induction pairs generalizing latest with
  | nil => rfl
  | cons pair rest inductionHypothesis =>
    have step : lastValues latest (pair :: rest) = lastValues (latest.insert pair.1 pair.2) rest := rfl
    rw [step, inductionHypothesis, Std.TreeMap.getElem?_insert]
    simp only [lastValue?, Std.LawfulEqCmp.compare_eq_iff_eq, Option.or_assoc]
    by_cases same : pair.1 = key <;> simp [same]

/-- Pairs with a key do not show in the last value of another. -/
theorem lastValue?_without {key other : String} (different : other ≠ key) (pairs : Members) :
    lastValue? other (without key pairs) = lastValue? other pairs := by
  induction pairs with
  | nil => rfl
  | cons pair rest inductionHypothesis =>
    rw [without_cons]
    by_cases same : pair.1 = key
    · simp [lastValue?, same, inductionHypothesis, Ne.symm different]
    · simp [lastValue?, same, inductionHypothesis]

/-- A key without a value may be left out of the pairs. -/
theorem handOut_without {latest : Latest} {key : String} (absent : latest[key]? = none)
    (pairs : Members) : handOut latest (without key pairs) = handOut latest pairs := by
  induction pairs generalizing latest with
  | nil => rfl
  | cons pair rest inductionHypothesis =>
    rw [without_cons]
    by_cases same : pair.1 = key
    · simp only [same, if_true, handOut, absent]
      exact inductionHypothesis absent
    · have still : (latest.erase pair.1)[key]? = none := by
        rw [Std.TreeMap.getElem?_erase, absent]; split <;> rfl
      simp only [same, if_false, handOut]
      cases latest[pair.1]? with
      | none => exact inductionHypothesis absent
      | some value => exact congrArg _ (inductionHypothesis still)

/-- Putting pairs behind a first member changes its value to the last one of its
key, and puts the others behind it. -/
theorem putAll_cons (key : String) (value : Json) (members additions : Members) :
    putAll ((key, value) :: members) additions =
      (key, (lastValue? key additions).getD value) :: putAll members (without key additions) := by
  induction additions generalizing value members with
  | nil => rfl
  | cons pair rest inductionHypothesis =>
    have step (merged : Members) :
        putAll merged (pair :: rest) = putAll (put pair.1 pair.2 merged) rest := rfl
    by_cases same : pair.1 = key
    · rw [step]
      simp only [put, same, if_true, inductionHypothesis, lastValue?, without]
      cases lastValue? key rest <;> simp [same]
    · rw [step]
      simp only [put, Ne.symm same, if_false, inductionHypothesis, lastValue?, without]
      cases lastValue? key rest <;> simp [same, putAll]

/-- Handing out the last values of pairs is putting the pairs one after the other. The first
pair of a key gives the place, and the last one the value, which is taken from a table that
is built beforehand. Later pairs of the key are then passed over, so the induction is on how
many pairs are left. -/
theorem handOut_eq_putAll {latest : Latest} {pairs : Members}
    (agrees : ∀ key, (∃ value, (key, value) ∈ pairs) → latest[key]? = lastValue? key pairs) :
    handOut latest pairs = putAll [] pairs := by
  match pairs, agrees with
  | [], _ => rfl
  | (key, value) :: rest, agrees =>
    have found : latest[key]? = some ((lastValue? key rest).getD value) := by
      rw [agrees key ⟨value, List.mem_cons_self⟩]
      cases h : lastValue? key rest <;> simp [lastValue?, h]
    have erased : (latest.erase key)[key]? = none := by
      rw [Std.TreeMap.getElem?_erase]; simp
    have others : ∀ other, (∃ item, (other, item) ∈ without key rest) →
        (latest.erase key)[other]? = lastValue? other (without key rest) := by
      rintro other ⟨item, member⟩
      have inside := List.mem_filter.mp member
      have different : other ≠ key := by simpa using inside.2
      rw [lastValue?_without different, Std.TreeMap.getElem?_erase,
        agrees other ⟨item, List.mem_cons_of_mem _ inside.1⟩]
      simp [lastValue?, Ne.symm different]
    have shorter : (without key rest).length < rest.length + 1 :=
      Nat.lt_succ_of_le (List.length_filter_le _ _)
    have start : putAll [] ((key, value) :: rest) = putAll [(key, value)] rest := rfl
    rw [start, putAll_cons, ← handOut_eq_putAll others, handOut_without erased]
    simp only [handOut, found]
termination_by pairs.length

/-- Building members from a row of pairs is putting one pair after the other. -/
theorem ofPairs_eq_putAll (pairs : Members) : ofPairs pairs = putAll [] pairs :=
  handOut_eq_putAll fun key _ => by
    rw [getElem?_lastValues]; simp

/-- A value that was handed out is the one that the key had. -/
theorem getElem?_of_mem_handOut {latest : Latest} {pairs : Members} {key : String} {value : Json}
    (given : (key, value) ∈ handOut latest pairs) : latest[key]? = some value := by
  induction pairs generalizing latest with
  | nil => cases given
  | cons pair rest inductionHypothesis =>
    simp only [handOut] at given
    split at given
    · rename_i first found
      rcases List.mem_cons.mp given with same | later
      · cases same; exact found
      · have kept := inductionHypothesis later
        rw [Std.TreeMap.getElem?_erase] at kept
        split at kept
        · cases kept
        · exact kept
    · exact inductionHypothesis given

/-- Every key gets its value once. -/
theorem nodup_handOut (latest : Latest) (pairs : Members) :
    ((handOut latest pairs).map (·.1)).Nodup := by
  induction pairs generalizing latest with
  | nil => exact List.nodup_nil
  | cons pair rest inductionHypothesis =>
    simp only [handOut]
    split
    · refine List.nodup_cons.mpr ⟨fun again => ?_, inductionHypothesis _⟩
      obtain ⟨⟨key, value⟩, given, rfl⟩ := List.mem_map.mp again
      have kept := getElem?_of_mem_handOut given
      rw [Std.TreeMap.getElem?_erase] at kept
      simp at kept
    · exact inductionHypothesis latest

/-- The keys of built members are distinct. -/
theorem nodup_ofPairs (pairs : Members) : ((ofPairs pairs).map (·.1)).Nodup :=
  nodup_handOut _ pairs

/-- More pairs are put behind the members of the first ones. -/
theorem ofPairs_append (pairs more : Members) :
    ofPairs (pairs ++ more) = putAll (ofPairs pairs) more := by
  rw [ofPairs_eq_putAll, ofPairs_eq_putAll, putAll, putAll, putAll, List.foldl_append]

example : (ofPairs [("b", .null), ("a", .boolean true), ("b", .boolean false)]).map (·.1) =
    ["b", "a"] := by decide

end EventSieve.Json
