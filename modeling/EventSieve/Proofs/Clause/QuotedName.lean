import EventSieve.Clause.Identifier

/-!
# Quoted names close once

A reader that has passed the opening quote does not know at a quote character whether the
name ends there: the next character decides. Doubling every quote character of a name keeps
them in pairs however many stand in a row, at the start and at the end of the name too, so
the closing quote is the first one that is left over, as long as the text behind it does not
go on with one.

The reader takes no other texts. So a name and what follows it are found in one way only,
and different names are written differently.
-/

namespace EventSieve.Clause

/-- What is read as a name is the name with its quote characters doubled, and a closing
quote that what follows does not double. So a name can be read in one way only, and it ends
at the first quote that is not one of a pair. -/
theorem eq_doubled_of_readQuoted? {quote : Char} {text name rest : List Char}
    (read : readQuoted? quote text = some (name, rest)) :
    text = doubled quote name ++ quote :: rest ∧ rest.head? ≠ some quote := by
  -- one character is read at a time, but for a doubled quote, which leaves none pending
  fun_induction readQuoted? quote text generalizing name with
  | case1 => cases read
  | case2 =>
    cases read
    exact ⟨rfl, by simp⟩
  | case3 => cases read
  | case4 after inductionHypothesis =>
    obtain ⟨⟨inner, left⟩, found, same⟩ := Option.map_eq_some_iff.mp read
    cases same
    obtain ⟨rfl, apart⟩ := inductionHypothesis found
    exact ⟨by simp [doubled], apart⟩
  | case5 next after different =>
    cases read
    exact ⟨rfl, by simpa using different⟩
  | case6 character next after different inductionHypothesis =>
    obtain ⟨⟨inner, left⟩, found, same⟩ := Option.map_eq_some_iff.mp read
    cases same
    obtain ⟨split, apart⟩ := inductionHypothesis found
    exact ⟨by rw [split]; simp [doubled, different], apart⟩

/-- The text of a quoted name is its opening quote, the doubled name and its closing quote. -/
theorem toList_quoted_append (quote : Char) (name : String) (rest : List Char) :
    (quoted quote name).toList ++ rest = quote :: (doubled quote name.toList ++ quote :: rest) := by
  simp [quoted]

/-- A name is read behind an opening quote exactly when the text is that name quoted, and
what follows it does not start with the quote character. -/
theorem readQuoted?_eq_some_iff {quote : Char} {body rest : List Char} {name : String} :
    readQuoted? quote body = some (name.toList, rest) ↔
      quote :: body = (quoted quote name).toList ++ rest ∧ rest.head? ≠ some quote := by
  rw [toList_quoted_append]
  constructor
  · intro read
    obtain ⟨rfl, apart⟩ := eq_doubled_of_readQuoted? read
    exact ⟨rfl, apart⟩
  · rintro ⟨same, apart⟩
    cases same
    exact readQuoted?_doubled quote name.toList rest apart

/-- A text starts with a quoted name, not followed by the quote character, in one way only. -/
theorem quoted_append_inj {quote : Char} {left right : String} {leftRest rightRest : List Char}
    (leftApart : leftRest.head? ≠ some quote) (rightApart : rightRest.head? ≠ some quote)
    (same : (quoted quote left).toList ++ leftRest = (quoted quote right).toList ++ rightRest) :
    left = right ∧ leftRest = rightRest := by
  have opened := toList_quoted_append quote left leftRest
  have leftRead := readQuoted?_eq_some_iff.mpr ⟨opened.symm, leftApart⟩
  have rightRead := readQuoted?_eq_some_iff.mpr ⟨opened.symm.trans same, rightApart⟩
  obtain ⟨names, rests⟩ := Prod.mk.inj (Option.some.inj (leftRead.symm.trans rightRead))
  exact ⟨String.toList_inj.mp names, rests⟩

/-- Behind its opening quote a quoted name is read back, with exactly what follows it, when
that does not start with the quote character; nothing else is read so, and different names
are quoted differently.

Proof: by induction on the reader, what it reads is a name with its quotes doubled and a
closing quote behind it; by induction on the name, such a text is read so. Injectivity needs
no further induction: two names that are quoted alike are both what the reader gets from
that text when nothing follows it. -/
theorem quoted_names_close_once (quote : Char) :
    (∀ (name : String) (body rest : List Char),
      readQuoted? quote body = some (name.toList, rest) ↔
        quote :: body = (quoted quote name).toList ++ rest ∧ rest.head? ≠ some quote) ∧
      Function.Injective (quoted quote) := by
  refine ⟨fun name body rest => readQuoted?_eq_some_iff, ?_⟩
  intro left right same
  have ended : ([] : List Char).head? ≠ some quote := by simp
  exact (quoted_append_inj ended ended (congrArg (·.toList ++ []) same)).1

example : quoted '"' "\"a\"" = "\"\"\"a\"\"\"" ∧
    readQuoted? '"' "\"\"a\"\"\" IN".toList = some ("\"a\"".toList, " IN".toList) := by
  decide +kernel

end EventSieve.Clause
