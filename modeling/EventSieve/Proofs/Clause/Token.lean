import EventSieve.Clause.Basic
import EventSieve.Proofs.Text.Numeral
import EventSieve.Proofs.Text.Pieces

/-!
# The tokens of a clause text

A reader of clauses goes through a text from left to right. A name between quote
characters is one token whatever stands inside it; outside of names a text has
words, numbers, single signs and references to parameters. What a reference
looks like depends on the dialect: a dollar sign with a number, a percent sign
with the letter `s`, or an at sign with a name. Blanks between tokens are passed
over.

Reading takes the longest token at every place. So a token is read back from its
spelling as long as what follows cannot go on with it, and every kind of token
has a lemma that says so.
-/

namespace EventSieve.Clause

/-- The words that clauses are made of. -/
inductive Word where
  | whereWord
  | andWord
  | notWord
  | inWord
  | betweenWord
  | unnestWord
deriving DecidableEq, Repr

namespace Word

/-- The spelling of a word. -/
def chars : Word → List Char
  | .whereWord => ['W', 'H', 'E', 'R', 'E']
  | .andWord => ['A', 'N', 'D']
  | .notWord => ['N', 'O', 'T']
  | .inWord => ['I', 'N']
  | .betweenWord => ['B', 'E', 'T', 'W', 'E', 'E', 'N']
  | .unnestWord => ['U', 'N', 'N', 'E', 'S', 'T']

/-- The words. -/
def all : List Word := [.whereWord, .andWord, .notWord, .inWord, .betweenWord, .unnestWord]

/-- The word that characters spell. -/
def ofChars? (characters : List Char) : Option Word :=
  all.find? fun word => word.chars = characters

end Word

/-- How a text refers to a parameter. -/
inductive Reference where
  /-- The parameter at a position, counted from one. -/
  | position (number : Nat)
  /-- The next parameter. -/
  | marker
  /-- The parameter of a name. -/
  | named (name : String)
deriving DecidableEq, Repr

/-- A part of a clause text. -/
inductive Token where
  | name (name : String)
  | reference (reference : Reference)
  | word (word : Word)
  | number (value : Nat)
  | sign (character : Char)
deriving DecidableEq, Repr

/-- The reference of a token that is one. -/
def Token.reference? : Token → Option Reference
  | .reference target => some target
  | _ => none

/-- The references among tokens, in their order. -/
def references (tokens : List Token) : List Reference :=
  tokens.filterMap Token.reference?

/-- The character that a reference to a parameter starts with. -/
def referenceSign : Dialect → Char
  | .bigquery => '@'
  | .mysql => '%'
  | .postgres => '$'

/-- The longest front of a text that passes a test for characters, unless it is
empty, and what follows it. -/
def readRun? (test : Char → Bool) (text : List Char) : Option (List Char × List Char) :=
  if (text.takeWhile test).isEmpty then none
  else some (text.takeWhile test, text.dropWhile test)

/-- Reads a reference after its first character. -/
def readReference? (dialect : Dialect) (text : List Char) : Option (Reference × List Char) :=
  match dialect with
  | .bigquery => (readRun? isNameChar text).map fun run => (.named (String.ofList run.1), run.2)
  | .postgres => (readRun? Char.isDigit text).map fun run =>
      (.position (Text.numeralValue run.1), run.2)
  | .mysql =>
    match text with
    | 's' :: rest => some (.marker, rest)
    | _ => none

/-- The number or the word that a run of characters spells. -/
def ofRun? (run : List Char) : Option Token :=
  if run.all Char.isDigit then some (.number (Text.numeralValue run))
  else (Word.ofChars? run).map .word

/-- Reads the token that starts with a character that is not blank. -/
def readToken? (dialect : Dialect) (first : Char) (rest : List Char) : Option (Token × List Char) :=
  if first = dialect.quote then
    (readQuoted? dialect.quote rest).map fun parts => (.name (String.ofList parts.1), parts.2)
  else if first = referenceSign dialect then
    (readReference? dialect rest).map fun parts => (.reference parts.1, parts.2)
  else if isNameChar first then
    (ofRun? (first :: rest.takeWhile isNameChar)).map fun token =>
      (token, rest.dropWhile isNameChar)
  else some (.sign first, rest)

/-- What follows a quoted name is no longer than the text. -/
theorem length_readQuoted?_le {quote : Char} {text : List Char} {parts : List Char × List Char}
    (read : readQuoted? quote text = some parts) : parts.2.length ≤ text.length := by
  fun_induction readQuoted? quote text generalizing parts with
  | case1 => cases read
  | case2 => cases read; simp
  | case3 => cases read
  | case4 rest inductionHypothesis =>
    obtain ⟨inner, found, rfl⟩ := Option.map_eq_some_iff.mp read
    have bound := inductionHypothesis found
    simp only [List.length_cons]
    omega
  | case5 => cases read; simp
  | case6 character next rest different inductionHypothesis =>
    obtain ⟨inner, found, rfl⟩ := Option.map_eq_some_iff.mp read
    have bound := inductionHypothesis found
    simp only [List.length_cons] at bound ⊢
    omega

/-- What follows a run is no longer than the text. -/
theorem length_readRun?_le {test : Char → Bool} {text : List Char} {run : List Char × List Char}
    (read : readRun? test text = some run) : run.2.length ≤ text.length := by
  simp only [readRun?] at read
  split at read
  · cases read
  · cases read
    exact (List.dropWhile_sublist test).length_le

/-- What follows a token is no longer than the text after its first character. Each kind of
token takes a run of characters off the front, so reading on always ends. -/
theorem length_readToken?_le {dialect : Dialect} {first : Char} {rest : List Char}
    {parts : Token × List Char} (read : readToken? dialect first rest = some parts) :
    parts.2.length ≤ rest.length := by
  simp only [readToken?] at read
  split at read
  · obtain ⟨inner, found, rfl⟩ := Option.map_eq_some_iff.mp read
    exact length_readQuoted?_le found
  · split at read
    · obtain ⟨inner, found, rfl⟩ := Option.map_eq_some_iff.mp read
      simp only [readReference?] at found
      split at found
      · obtain ⟨run, taken, rfl⟩ := Option.map_eq_some_iff.mp found
        exact length_readRun?_le taken
      · obtain ⟨run, taken, rfl⟩ := Option.map_eq_some_iff.mp found
        exact length_readRun?_le taken
      · split at found
        · cases found; simp
        · cases found
    · split at read
      · obtain ⟨token, _, rfl⟩ := Option.map_eq_some_iff.mp read
        exact (List.dropWhile_sublist isNameChar).length_le
      · cases read
        exact Nat.le_refl _

/-- The tokens of a text from left to right. A text with a part that is no token
has none. -/
def tokens? (dialect : Dialect) (text : List Char) : Option (List Token) :=
  match text with
  | [] => some []
  | first :: rest =>
    if Text.isBlank first then tokens? dialect rest
    else
      match _read : readToken? dialect first rest with
      | none => none
      | some (token, remaining) => (tokens? dialect remaining).map (token :: ·)
termination_by text.length
decreasing_by
  · simp
  · have bound : remaining.length ≤ rest.length := length_readToken?_le _read
    simp only [List.length_cons]
    omega

/-- A text has no tokens when it is empty. -/
@[simp] theorem tokens?_nil (dialect : Dialect) : tokens? dialect [] = some [] := by
  rw [tokens?]

/-- Blanks are passed over. -/
theorem tokens?_blank {first : Char} (dialect : Dialect) (rest : List Char)
    (blank : Text.isBlank first = true) :
    tokens? dialect (first :: rest) = tokens? dialect rest := by
  rw [tokens?, if_pos blank]

/-- A token in front of a text stands in front of the tokens of what follows it. -/
theorem tokens?_of_readToken? {dialect : Dialect} {first : Char} {rest remaining : List Char}
    {token : Token} (solid : Text.isBlank first = false)
    (read : readToken? dialect first rest = some (token, remaining)) :
    tokens? dialect (first :: rest) = (tokens? dialect remaining).map (token :: ·) := by
  rw [tokens?, if_neg (by simp [solid])]
  split
  · rename_i absent
    cases absent.symm.trans read
  · rename_i other after found
    cases found.symm.trans read
    rfl

/-- Whether a text cannot go on with a run of name characters. -/
def Apart (rest : List Char) : Prop :=
  ∀ character ∈ rest.head?, isNameChar character = false

/-- A run that is not empty is read up to where it ends. -/
theorem readRun?_append {test : Char → Bool} {run rest : List Char} (present : run ≠ [])
    (all : ∀ character ∈ run, test character)
    (stop : ∀ character ∈ rest.head?, test character = false) :
    readRun? test (run ++ rest) = some (run, rest) := by
  obtain ⟨taken, dropped⟩ := Text.run_append all stop
  rw [readRun?, taken, dropped, if_neg (by simpa using present)]

/-- A digit may stand in a name. -/
theorem isNameChar_of_isDigit {character : Char} (digit : character.isDigit = true) :
    isNameChar character = true := by
  simp [isNameChar, Char.isAlphanum, digit]

/-- The blank characters are no name characters. -/
theorem isBlank_of_isNameChar {character : Char} (inside : isNameChar character = true) :
    Text.isBlank character = false := by
  have small : character.toNat < 128 := by
    simp only [isNameChar, Char.isAlphanum, Char.isAlpha, Char.isUpper, Char.isLower, Char.isDigit,
      Bool.or_eq_true, Bool.and_eq_true, decide_eq_true_eq] at inside
    rcases inside with ((inside | inside) | inside) | rfl
    all_goals first
      | decide
      | (have upper := UInt32.le_iff_toNat_le.mp inside.2
         simp only [Char.toNat] at *
         exact Nat.lt_of_le_of_lt upper (by decide))
  have every : ∀ code : Fin 128, isNameChar (Char.ofNat code) = true →
      Text.isBlank (Char.ofNat code) = false := by decide
  have known := every ⟨character.toNat, small⟩
  rw [Char.ofNat_toNat] at known
  exact known inside

/-- A character that starts a run of name characters is neither the quote character
of a dialect nor the sign of its references. -/
theorem ne_signs_of_isNameChar (dialect : Dialect) {character : Char}
    (inside : isNameChar character = true) :
    character ≠ dialect.quote ∧ character ≠ referenceSign dialect := by
  constructor
  · rintro rfl
    revert inside
    cases dialect <;> decide
  · rintro rfl
    revert inside
    cases dialect <;> decide

/-- A run of name characters is one token. -/
theorem tokens?_run {dialect : Dialect} {run rest : List Char} {token : Token} (present : run ≠ [])
    (all : ∀ character ∈ run, isNameChar character) (apart : Apart rest)
    (spelled : ofRun? run = some token) :
    tokens? dialect (run ++ rest) = (tokens? dialect rest).map (token :: ·) := by
  obtain ⟨first, more, rfl⟩ := List.exists_cons_of_ne_nil present
  have inside : isNameChar first = true := all first List.mem_cons_self
  obtain ⟨noQuote, noSign⟩ := ne_signs_of_isNameChar dialect inside
  obtain ⟨taken, dropped⟩ := Text.run_append
    (fun character member => all character (List.mem_cons_of_mem first member)) apart
  rw [List.cons_append]
  apply tokens?_of_readToken? (isBlank_of_isNameChar inside)
  rw [readToken?, if_neg noQuote, if_neg noSign, if_pos inside, taken, dropped, spelled]
  rfl

/-- A word is read back. -/
theorem tokens?_word (dialect : Dialect) (word : Word) {rest : List Char} (apart : Apart rest) :
    tokens? dialect (word.chars ++ rest) = (tokens? dialect rest).map (.word word :: ·) := by
  refine tokens?_run ?_ (List.all_eq_true.mp ?_) apart ?_
  · cases word <;> decide
  · cases word <;> decide
  · cases word <;> decide

/-- A quoted name is one token, whatever it is. -/
theorem readToken?_identifier (dialect : Dialect) (name : String) {rest : List Char}
    (apart : rest.head? ≠ some dialect.quote) :
    ∃ body, (dialect.identifier name).toList = dialect.quote :: body ∧
      readToken? dialect dialect.quote (body ++ rest) = some (.name name, rest) := by
  refine ⟨doubled dialect.quote name.toList ++ [dialect.quote], ?_, ?_⟩
  · simp [Dialect.identifier, quoted]
  · rw [List.append_assoc, List.singleton_append, readToken?, if_pos rfl,
      readQuoted?_doubled dialect.quote name.toList rest apart]
    simp

/-- A quoted name is read back, whatever it is. -/
theorem tokens?_identifier (dialect : Dialect) (name : String) {rest : List Char}
    (apart : rest.head? ≠ some dialect.quote) :
    tokens? dialect ((dialect.identifier name).toList ++ rest) =
      (tokens? dialect rest).map (.name name :: ·) := by
  obtain ⟨body, text, read⟩ := readToken?_identifier dialect name apart
  rw [text, List.cons_append]
  exact tokens?_of_readToken? (by cases dialect <;> decide) read

/-- The signs that clauses are made of are tokens. -/
theorem tokens?_sign (dialect : Dialect) {character : Char} (rest : List Char)
    (known : character ∈ ['(', ')', ',', '=', '<', '>']) :
    tokens? dialect (character :: rest) = (tokens? dialect rest).map (.sign character :: ·) := by
  have kept : Text.isBlank character = false ∧ character ≠ dialect.quote ∧
      character ≠ referenceSign dialect ∧ isNameChar character = false := by
    simp only [List.mem_cons, List.not_mem_nil, or_false] at known
    rcases known with rfl | rfl | rfl | rfl | rfl | rfl <;> cases dialect <;> decide
  obtain ⟨solid, noQuote, noSign, outside⟩ := kept
  apply tokens?_of_readToken? solid
  rw [readToken?, if_neg noQuote, if_neg noSign, if_neg (by simp [outside])]

/-- The reference that a dialect writes for a name and a position. -/
def referenceOf (dialect : Dialect) (name : String) (position : Nat) : Reference :=
  match dialect with
  | .bigquery => .named name
  | .mysql => .marker
  | .postgres => .position position

/-- A reference is one token when its name can be read. What follows must not go on with it:
behind a name no character of names may stand, and behind a position no digit. -/
theorem readToken?_reference (dialect : Dialect) {name : String} (position : Nat) {rest : List Char}
    (present : name.toList ≠ []) (all : ∀ character ∈ name.toList, isNameChar character)
    (apart : Apart rest) :
    ∃ body, (dialect.reference name position).toList = referenceSign dialect :: body ∧
      readToken? dialect (referenceSign dialect) (body ++ rest) =
        some (.reference (referenceOf dialect name position), rest) := by
  refine ⟨match dialect with
    | .bigquery => name.toList
    | .mysql => ['s']
    | .postgres => Text.decimalChars position, ?_, ?_⟩
  · cases dialect <;> simp [Dialect.reference, referenceSign, Number.integerText]
  rw [readToken?, if_neg (by cases dialect <;> decide), if_pos rfl]
  cases dialect with
  | bigquery =>
    simp only [readReference?, readRun?_append present all apart, Option.map_some,
      String.ofList_toList, referenceOf]
  | mysql => rfl
  | postgres =>
    have digits : ∀ character ∈ Text.decimalChars position, character.isDigit = true := by
      intro character member
      exact Text.isDigit_of_mem_decimalChars member
    have stop : ∀ character ∈ rest.head?, character.isDigit = false := by
      intro character member
      apply Bool.eq_false_iff.mpr
      intro digit
      have outside := apart character member
      rw [isNameChar_of_isDigit digit] at outside
      cases outside
    have present : Text.decimalChars position ≠ [] := Nat.toDigits_ne_nil
    simp only [readReference?, readRun?_append present digits stop, Option.map_some,
      Text.numeralValue_decimalChars, referenceOf]

/-- A reference is read back when its name can be read. -/
theorem tokens?_reference (dialect : Dialect) {name : String} (position : Nat) {rest : List Char}
    (present : name.toList ≠ []) (all : ∀ character ∈ name.toList, isNameChar character)
    (apart : Apart rest) :
    tokens? dialect ((dialect.reference name position).toList ++ rest) =
      (tokens? dialect rest).map (.reference (referenceOf dialect name position) :: ·) := by
  obtain ⟨body, text, read⟩ := readToken?_reference dialect position present all apart
  rw [text, List.cons_append]
  exact tokens?_of_readToken? (by cases dialect <;> decide) read

end EventSieve.Clause
