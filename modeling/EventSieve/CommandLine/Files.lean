import EventSieve.Text.Cut

/-!
# Files by their paths

Commands name their files by paths, and a path leads to the content of a file or
to nothing. In a working directory that holds files only, a path leads to a file
when it begins in that directory and ends in the name of the file, with nothing
before the name but steps that stay where they are: single dots and the empty
steps between repeated slashes. A step behind the name asks for a directory, so
it leads nowhere.
-/

namespace EventSieve.CommandLine

/-- The bytes of the files that paths lead to. -/
abbrev Files := String → Option ByteArray

/-- The text of a file, when it exists and holds text. -/
def Files.text? (files : Files) (path : String) : Option String :=
  (files path).bind String.fromUTF8?

/-- Whether a step of a path stays in the directory that it starts from. -/
def isIdleStep (step : List Char) : Bool :=
  step.isEmpty || step = ['.']

/-- The name in the working directory that a path comes down to. A path without
any characters, or with a slash in front, does not begin there. -/
def localName? (path : String) : Option String :=
  match Text.pieces '/' path.toList with
  | [] :: _ => none
  | steps =>
    match steps.dropWhile isIdleStep with
    | [name] => some (String.ofList name)
    | _ => none

/-- The files of a working directory that holds nothing else, by their names. -/
def Files.ofDirectory (entries : List (String × ByteArray)) : Files := fun path => do
  let name ← localName? path
  let entry ← entries.find? fun entry => entry.1 = name
  return entry.2

/-- A name comes down to itself, unless it is a step that stays where it is. -/
theorem localName?_of_name {name : String} (inside : '/' ∉ name.toList)
    (moves : isIdleStep name.toList = false) : localName? name = some name := by
  have whole := Text.pieces_of_not_mem inside
  have nonempty : name.toList ≠ [] := by
    intro empty
    simp [empty, isIdleStep] at moves
  simp only [localName?, whole]
  split
  · rename_i steps
    exact absurd (List.cons.inj steps).1 nonempty
  · simp [moves]

example : localName? ".//./rows.json" = some "rows.json" := by decide +kernel

example : localName? "rows.json/" = none := by decide +kernel

example : localName? "/rows.json" = none := by decide +kernel

end EventSieve.CommandLine
