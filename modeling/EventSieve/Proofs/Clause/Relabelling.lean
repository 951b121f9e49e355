import EventSieve.Proofs.Clause.Rendering

/-!
# Texts with other references

A text is written again with other references by a reader that goes through it as the
reader of tokens does: names between quote characters are kept whatever stands inside
them, references are replaced, and every other character stays. So a column that is
named like a reference keeps its name.

A rendered condition is the spelling of its predicate, character by character. Writing
this spelling again with other references is spelling the predicate that has the other
references.
-/

namespace EventSieve.Clause

open EventSieve.Filter (Mode)

/-- The spelling of a reference. -/
def Reference.chars : Reference → List Char
  | .position number => '$' :: Text.decimalChars number
  | .marker => ['%', 's']
  | .named name => '@' :: name.toList

/-- Whether a reference is one that a dialect writes, by a name that can be read. -/
def Reference.IsOf (dialect : Dialect) (reference : Reference) : Prop :=
  ∃ name position, IsParameterName name.toList ∧ reference = referenceOf dialect name position

/-- A reference is spelled as its dialect writes it. -/
theorem chars_referenceOf (dialect : Dialect) (name : String) (position : Nat) :
    (referenceOf dialect name position).chars = (dialect.reference name position).toList := by
  cases dialect <;> simp [referenceOf, Reference.chars, Dialect.reference, Number.integerText]

/-- Whether a token is a quoted name or a reference. -/
def Token.isMark : Token → Bool
  | .name _ | .reference _ => true
  | .word _ | .number _ | .sign _ => false

/-- What starts with another character than a quoted name and a reference is neither. -/
theorem isMark_of_readToken? {dialect : Dialect} {first : Char} {rest remaining : List Char}
    {token : Token} (plain : first ≠ dialect.quote ∧ first ≠ referenceSign dialect)
    (read : readToken? dialect first rest = some (token, remaining)) : token.isMark = false := by
  rw [readToken?, if_neg plain.1, if_neg plain.2] at read
  split at read
  · obtain ⟨spelled, run, same⟩ := Option.map_eq_some_iff.mp read
    cases same
    rw [ofRun?] at run
    split at run
    · cases run
      rfl
    · obtain ⟨word, _, rfl⟩ := Option.map_eq_some_iff.mp run
      rfl
  · cases read
    rfl

/-- A text with other references. -/
def relabel (dialect : Dialect) (label : Reference → Reference) (text : List Char) : List Char :=
  match text with
  | [] => []
  | first :: rest =>
    match _read : readToken? dialect first rest with
    | some (.reference target, remaining) =>
      (label target).chars ++ relabel dialect label remaining
    | some (.name name, remaining) =>
      (dialect.identifier name).toList ++ relabel dialect label remaining
    | _ => first :: relabel dialect label rest
termination_by text.length
decreasing_by
  · have bound : remaining.length ≤ rest.length := length_readToken?_le _read
    simp only [List.length_cons]
    omega
  · have bound : remaining.length ≤ rest.length := length_readToken?_le _read
    simp only [List.length_cons]
    omega
  · simp

section

variable (dialect : Dialect) (label : Reference → Reference)

/-- The empty text has no references. -/
theorem relabel_nil : relabel dialect label [] = [] := by
  rw [relabel]

/-- Characters that start neither a quoted name nor a reference stay. -/
theorem relabel_append {front : List Char}
    (plain : ∀ character ∈ front, character ≠ dialect.quote ∧ character ≠ referenceSign dialect)
    (rest : List Char) :
    relabel dialect label (front ++ rest) = front ++ relabel dialect label rest := by
  induction front with
  | nil => rfl
  | cons first more inductionHypothesis =>
    obtain ⟨own, later⟩ := List.forall_mem_cons.mp plain
    rw [List.cons_append, relabel]
    split
    · rename_i read
      cases isMark_of_readToken? own read
    · rename_i read
      cases isMark_of_readToken? own read
    · rw [inductionHypothesis later, List.cons_append]

/-- A quoted name stays, whatever it is. -/
theorem relabel_identifier (name : String) {rest : List Char}
    (apart : rest.head? ≠ some dialect.quote) :
    relabel dialect label ((dialect.identifier name).toList ++ rest) =
      (dialect.identifier name).toList ++ relabel dialect label rest := by
  obtain ⟨body, text, read⟩ := readToken?_identifier dialect name apart
  rw [text, List.cons_append, List.cons_append, relabel]
  split
  · rename_i found
    cases found.symm.trans read
  · rename_i found
    cases found.symm.trans read
    rw [text]
    rfl
  · rename_i none
    exact absurd read (none _ _)

/-- A reference is replaced. -/
theorem relabel_reference {reference : Reference} (own : reference.IsOf dialect) {rest : List Char}
    (apart : Apart rest) :
    relabel dialect label (reference.chars ++ rest) =
      (label reference).chars ++ relabel dialect label rest := by
  obtain ⟨name, position, readable, rfl⟩ := own
  obtain ⟨body, text, read⟩ :=
    readToken?_reference dialect position readable.ne_nil readable.all apart
  rw [chars_referenceOf, text, List.cons_append, relabel]
  split
  · rename_i found
    cases found.symm.trans read
    rfl
  · rename_i found
    cases found.symm.trans read
  · rename_i none _
    exact absurd read (none _ _)

end

/-- The characters between the parameters of a row. -/
def rowSeparator : List Char := [',', ' ']

/-- The spelling of what stands behind the word IN. -/
def Operand.chars : Operand → List Char
  | .array reference => Word.unnestWord.chars ++ '(' :: reference.chars ++ [')']
  | .row references => '(' :: rowSeparator.intercalate (references.map Reference.chars) ++ [')']

/-- A word between blanks, behind the word that turns a comparison around if it is there. -/
def wordChars (negated : Bool) (word : Word) : List Char :=
  ' ' :: (if negated then Word.notWord.chars else []) ++ ' ' :: word.chars ++ [' ']

/-- The spelling of a predicate. -/
def Predicate.chars (dialect : Dialect) : Predicate → List Char
  | .equal left right => Text.decimalChars left ++ '=' :: Text.decimalChars right
  | .among column negated operand =>
    (dialect.identifier column).toList ++ (wordChars negated .inWord ++ operand.chars)
  | .between column negated lower upper =>
    (dialect.identifier column).toList ++ (wordChars negated .betweenWord ++
      (lower.chars ++ (' ' :: Word.andWord.chars ++ [' '] ++ upper.chars)))
  | .less column bound => (dialect.identifier column).toList ++ ([' ', '<', ' '] ++ bound.chars)
  | .greater column bound => (dialect.identifier column).toList ++ ([' ', '>', ' '] ++ bound.chars)

/-- What stands behind the word IN with other references. -/
def Operand.map (label : Reference → Reference) : Operand → Operand
  | .array reference => .array (label reference)
  | .row references => .row (references.map label)

/-- A predicate with other references. -/
def Predicate.map (label : Reference → Reference) : Predicate → Predicate
  | .equal left right => .equal left right
  | .among column negated operand => .among column negated (operand.map label)
  | .between column negated lower upper => .between column negated (label lower) (label upper)
  | .less column bound => .less column (label bound)
  | .greater column bound => .greater column (label bound)

/-- Whether all references behind the word IN have a property. -/
def Operand.Each (holds : Reference → Prop) : Operand → Prop
  | .array reference => holds reference
  | .row references => ∀ reference ∈ references, holds reference

/-- Whether all references of a predicate have a property. -/
def Predicate.Each (holds : Reference → Prop) : Predicate → Prop
  | .equal _ _ => True
  | .among _ _ operand => operand.Each holds
  | .between _ _ lower upper => holds lower ∧ holds upper
  | .less _ bound | .greater _ bound => holds bound

section

variable {dialect : Dialect} (label : Reference → Reference)

/-- A single sign stays. -/
theorem relabel_cons {character : Char} (plain : character ≠ dialect.quote ∧
    character ≠ referenceSign dialect) (rest : List Char) :
    relabel dialect label (character :: rest) = character :: relabel dialect label rest :=
  @relabel_append dialect label [character] (List.forall_mem_singleton.mpr plain) rest

/-- A word stays. -/
theorem relabel_word (word : Word) (rest : List Char) :
    relabel dialect label (word.chars ++ rest) = word.chars ++ relabel dialect label rest := by
  have all : ∀ character ∈ word.chars, isNameChar character = true :=
    List.all_eq_true.mp (by cases word <;> rfl)
  exact relabel_append dialect label
    (fun character member => ne_signs_of_isNameChar dialect (all character member)) rest

/-- References behind commas are replaced up to the end of their row. A reference ends where
the comma or the parenthesis begins, so each of them is replaced whole, and commas and
blanks stay. -/
theorem relabel_row {references : List Reference}
    (own : ∀ reference ∈ references, reference.IsOf dialect) (rest : List Char) :
    relabel dialect label (rowSeparator.intercalate (references.map Reference.chars) ++ ')' :: rest) =
      rowSeparator.intercalate ((references.map label).map Reference.chars) ++
        ')' :: relabel dialect label rest := by
  induction references with
  | nil => exact relabel_cons label (by cases dialect <;> decide) rest
  | cons first more inductionHypothesis =>
    obtain ⟨ownFirst, later⟩ := List.forall_mem_cons.mp own
    cases more with
    | nil =>
      simp only [List.map_cons, List.map_nil, List.intercalate_singleton]
      rw [relabel_reference dialect label ownFirst (apart_cons rest (by decide)),
        relabel_cons label (by cases dialect <;> decide)]
    | cons second others =>
      have behind := inductionHypothesis later
      have apart (further : List Char) : Apart (rowSeparator ++ further) :=
        apart_cons _ (by decide)
      have comma (further : List Char) : relabel dialect label (rowSeparator ++ further) =
          rowSeparator ++ relabel dialect label further :=
        (relabel_cons label (by cases dialect <;> decide) (' ' :: further)).trans
          (congrArg _ (relabel_cons label (by cases dialect <;> decide) further))
      simp only [List.map_cons, List.intercalate_cons_cons, List.append_assoc] at behind ⊢
      rw [relabel_reference dialect label ownFirst (apart _), comma, behind]

/-- What stands behind the word IN is spelled with its other references. -/
theorem relabel_operand {operand : Operand} (own : operand.Each (Reference.IsOf dialect))
    (rest : List Char) :
    relabel dialect label (operand.chars ++ rest) =
      (operand.map label).chars ++ relabel dialect label rest := by
  cases operand with
  | array reference =>
    simp only [Operand.chars, Operand.map, List.append_assoc, List.cons_append, List.nil_append]
    rw [relabel_word, relabel_cons label (by cases dialect <;> decide),
      relabel_reference dialect label own (apart_cons rest (by decide)),
      relabel_cons label (by cases dialect <;> decide)]
  | row references =>
    simp only [Operand.chars, Operand.map, List.append_assoc, List.cons_append, List.nil_append]
    rw [relabel_cons label (by cases dialect <;> decide), relabel_row label own]

/-- The spelling of a predicate with other references is that of the predicate that has
them. Nothing else in a predicate can be taken for a reference: names of columns are passed
over within their quotes, and words, numbers and signs have no character that begins one. -/
theorem relabel_predicate {predicate : Predicate} (own : predicate.Each (Reference.IsOf dialect)) :
    relabel dialect label (predicate.chars dialect) = (predicate.map label).chars dialect := by
  have column (name : String) {rest : List Char} (apart : rest.head? = some ' ') :
      relabel dialect label ((dialect.identifier name).toList ++ rest) =
        (dialect.identifier name).toList ++ relabel dialect label rest := by
    apply relabel_identifier
    rw [apart]
    cases dialect <;> decide
  have blank (rest : List Char) : relabel dialect label (' ' :: rest) =
      ' ' :: relabel dialect label rest := relabel_cons label (by cases dialect <;> decide) rest
  have words (negated : Bool) (word : Word) (rest : List Char) :
      relabel dialect label (wordChars negated word ++ rest) =
        wordChars negated word ++ relabel dialect label rest := by
    cases negated with
    | false =>
      simp only [wordChars, Bool.false_eq_true, if_false, List.append_assoc, List.cons_append,
        List.nil_append, blank, relabel_word]
    | true =>
      simp only [wordChars, if_true, List.append_assoc, List.cons_append, List.nil_append, blank,
        relabel_word]
  have last {reference : Reference} (mine : reference.IsOf dialect) :
      relabel dialect label reference.chars = (label reference).chars := by
    have whole := @relabel_reference dialect label _ mine [] (by rintro _ ⟨⟩)
    rwa [List.append_nil, relabel_nil, List.append_nil] at whole
  cases predicate with
  | equal left right =>
    have digits (number : Nat) (rest : List Char) :
        relabel dialect label (Text.decimalChars number ++ rest) =
          Text.decimalChars number ++ relabel dialect label rest :=
      relabel_append dialect label (fun character member => ne_signs_of_isNameChar dialect
        (isNameChar_of_isDigit (Text.isDigit_of_mem_decimalChars member))) rest
    have lastDigits := digits right []
    rw [List.append_nil, relabel_nil, List.append_nil] at lastDigits
    simp only [Predicate.chars, Predicate.map]
    rw [digits, relabel_cons label (by cases dialect <;> decide), lastDigits]
  | among name negated operand =>
    have whole := relabel_operand label own []
    rw [List.append_nil, relabel_nil, List.append_nil] at whole
    simp only [Predicate.chars, Predicate.map]
    rw [column name rfl, words, whole]
  | between name negated lower upper =>
    obtain ⟨ownLower, ownUpper⟩ := own
    simp only [Predicate.chars, Predicate.map, List.append_assoc, List.cons_append, List.nil_append]
    rw [column name rfl, words, relabel_reference dialect label ownLower (apart_cons _ (by decide)), blank,
      relabel_word, blank, last ownUpper]
  | less name bound =>
    simp only [Predicate.chars, Predicate.map, List.cons_append, List.nil_append]
    rw [column name rfl, blank, relabel_cons label (by cases dialect <;> decide), blank, last own]
  | greater name bound =>
    simp only [Predicate.chars, Predicate.map, List.cons_append, List.nil_append]
    rw [column name rfl, blank, relabel_cons label (by cases dialect <;> decide), blank, last own]

end

/-- The references of a rendered condition are references of its dialect. Names that are
made from a column can be read as names of parameters, whatever the column is called. -/
theorem isOf_predicateOf (dialect : Dialect) (before : Nat) (used : List String)
    (condition : Condition) :
    (predicateOf dialect before used condition).Each (Reference.IsOf dialect) := by
  obtain ⟨⟨column, type⟩, comparison⟩ := condition
  have minimumName (names : List String) := isParameterName_ofColumn names column "_min"
    (List.all_eq_true.mp rfl)
  have maximumName (names : List String) := isParameterName_ofColumn names column "_max"
    (List.all_eq_true.mp rfl)
  have listName := isParameterName_ofColumn used column "_list" (List.all_eq_true.mp rfl)
  cases comparison with
  | never => trivial
  | membership mode values =>
    simp only [predicateOf]
    split
    · exact ⟨_, _, listName, rfl⟩
    · intro reference member
      obtain ⟨index, _, rfl⟩ := List.mem_map.mp member
      exact ⟨_, _, listName, rfl⟩
  | between mode minimum maximum =>
    exact ⟨⟨_, _, minimumName used, rfl⟩, ⟨_, _, maximumName _, rfl⟩⟩
  | minimum mode bound => cases mode <;> exact ⟨_, _, minimumName used, rfl⟩
  | maximum mode bound => cases mode <;> exact ⟨_, _, maximumName used, rfl⟩

/-- A condition is rendered as the spelling of its predicate. The text is put together from
strings by the form of the comparison, and the spelling of the predicate from its parts, so
the two meet case by case. -/
theorem toList_text_render (dialect : Dialect) (before : Nat) (used : List String)
    (condition : Condition) :
    (render dialect before used condition).text.toList =
      (predicateOf dialect before used condition).chars dialect := by
  have negated (mode : Mode) : (negation mode).toList =
      if decide (mode = .exclude) then Word.notWord.chars else [] := by
    cases mode <;> rfl
  have row (references : List String) : (Dialect.listOperand references).toList =
      '(' :: rowSeparator.intercalate (references.map String.toList) ++ [')'] := by
    simp [Dialect.listOperand, rowSeparator, String.toList_intercalate]
  obtain ⟨⟨column, type⟩, comparison⟩ := condition
  cases comparison with
  | never =>
    have spelled : "1=0".toList = Text.decimalChars 1 ++ '=' :: Text.decimalChars 0 := by
      decide +kernel
    exact spelled
  | membership mode values =>
    simp only [render, predicateOf]
    split
    · simp [Predicate.chars, wordChars, Operand.chars, Dialect.arrayOperand, negated, Word.chars,
        chars_referenceOf]
    · simp [Predicate.chars, wordChars, Operand.chars, row, negated, Word.chars,
        chars_referenceOf, Function.comp_def]
  | between mode minimum maximum =>
    simp [render, predicateOf, Predicate.chars, wordChars, negated, Word.chars, chars_referenceOf]
  | minimum mode bound =>
    cases mode <;> simp [render, predicateOf, Predicate.chars, minimumSign, chars_referenceOf]
  | maximum mode bound =>
    cases mode <;> simp [render, predicateOf, Predicate.chars, maximumSign, chars_referenceOf]

end EventSieve.Clause
