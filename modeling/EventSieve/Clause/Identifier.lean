import EventSieve.Text.Ascii

/-!
# Identifiers in clauses

The name of a column stands between quote characters, and a quote character
inside it is written twice. A reader that takes a doubled quote as one character
and stops at a single one therefore gets the name back, whatever the name is.

The name of a parameter is made from the name of a column: every character that
is not an ASCII letter, a digit or an underscore becomes an underscore, and a
name that would be empty or start with a digit is put behind `p_`.
-/

namespace EventSieve.Clause

/-- A text in which every quote character stands twice. -/
def doubled (quote : Char) : List Char → List Char
  | [] => []
  | character :: rest =>
    if character = quote then quote :: quote :: doubled quote rest
    else character :: doubled quote rest

/-- A name between quote characters. -/
def quoted (quote : Char) (name : String) : String :=
  String.ofList (quote :: (doubled quote name.toList ++ [quote]))

/-- Reads a quoted name after its opening quote: the name and what follows its
closing quote. A name that is not closed has no reading. -/
def readQuoted? (quote : Char) : List Char → Option (List Char × List Char)
  | [] => none
  | [character] => if character = quote then some ([], []) else none
  | character :: next :: rest =>
    if character = quote then
      if next = quote then (readQuoted? quote rest).map fun parts => (quote :: parts.1, parts.2)
      else some ([], next :: rest)
    else (readQuoted? quote (next :: rest)).map fun parts => (character :: parts.1, parts.2)

/-- Whether a character may stand in the name of a parameter. -/
def isNameChar (character : Char) : Bool :=
  character.isAlphanum || character = '_'

/-- The name of a parameter made from the name of a column. -/
def parameterStem (column : String) : String :=
  let body := column.toList.map fun character => if isNameChar character then character else '_'
  let needsFront := match body with
    | [] => true
    | first :: _ => first.isDigit
  String.ofList (if needsFront then 'p' :: '_' :: body else body)

/-- A quoted name reads back, and what follows it is left, as long as it does not go on with
the quote character. The induction is on the name: each quote character in it was doubled,
and the one behind it stands alone. -/
theorem readQuoted?_doubled (quote : Char) (name rest : List Char) (apart : rest.head? ≠ some quote) :
    readQuoted? quote (doubled quote name ++ quote :: rest) = some (name, rest) := by
  induction name with
  | nil =>
    cases rest with
    | nil => simp [doubled, readQuoted?]
    | cons first more =>
      have different : first ≠ quote := fun same => apart (by simp [same])
      simp [doubled, readQuoted?, different]
  | cons character name inductionHypothesis =>
    by_cases same : character = quote
    · subst same
      simp [doubled, readQuoted?, inductionHypothesis]
    · obtain ⟨next, more, split⟩ : ∃ next more, doubled quote name ++ quote :: rest = next :: more := by
        cases doubled quote name with
        | nil => exact ⟨_, _, rfl⟩
        | cons next more => exact ⟨_, _, rfl⟩
      rw [split] at inductionHypothesis
      simp [doubled, same, readQuoted?, split, inductionHypothesis]

example : quoted '"' "a\"b" = "\"a\"\"b\"" := by decide +kernel

example : parameterStem "2nd-col" = "p_2nd_col" := by decide +kernel

end EventSieve.Clause
