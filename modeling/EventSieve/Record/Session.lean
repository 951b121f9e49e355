/-!
# Positions within sessions

Records that follow each other with one session form a run, and a record is
numbered by its position in its run. A record of another session starts a new
run, even when its session has been seen before.
-/

namespace EventSieve

/-- The session of the last record and the number for the next one of the same
session. -/
structure SessionSequence where
  current : Option String
  next : Nat
deriving DecidableEq, Repr

namespace SessionSequence

/-- No record has been seen. -/
def start : SessionSequence := ⟨none, 0⟩

/-- The number of the next record of a session, and the sequence after it. -/
def observe (sequence : SessionSequence) (session : String) : Nat × SessionSequence :=
  let number := if sequence.current = some session then sequence.next else 0
  (number, ⟨some session, number + 1⟩)

/-- The numbers of records by their sessions, in order. -/
def numbers : SessionSequence → List String → List Nat
  | _, [] => []
  | sequence, session :: rest =>
    let (number, after) := sequence.observe session
    number :: numbers after rest

/-- The first record of a sequence has number zero. -/
theorem observe_start (session : String) : (start.observe session).1 = 0 := rfl

/-- A record of the session just seen has the next number. -/
theorem observe_observe (sequence : SessionSequence) (session : String) :
    ((sequence.observe session).2.observe session).1 = (sequence.observe session).1 + 1 := by
  simp [observe]

example : numbers start ["a", "a", "b", "a"] = [0, 1, 0, 0] := by decide

end SessionSequence

end EventSieve
