import EventSieve.Proofs.Number.Numerals
import EventSieve.Proofs.Version.WrittenSuffix
import EventSieve.Version.Basic

/-!
# The texts with a semantic form

A text has a semantic form when it is at most one letter v, one to three numerals with
points between them, and a suffix. Every numeral fits a word of 64 bits, whatever zeros
stand in front of it; the form has their numbers, zero for the missing ones, and the
segments of the suffix.

The strict spelling is the part of this grammar with three numerals and no needless zeros,
so a text in the strict spelling has the form that it has there. Any other text with a form
has the one that is read strictly from its three numbers, written in decimal, and its suffix.
-/

namespace EventSieve.Version

/-- Whether characters are a numeral that fits a word of 64 bits, with any zeros in front. -/
def IsCoreNumber (part : List Char) : Prop :=
  Text.isNumeral part = true ∧ Text.numeralValue part < Number.wordBound

/-- A version as it is written: a letter v or none, one to three numerals that fit a word
of 64 bits, and a suffix. -/
structure WrittenVersion where
  letter : List Char
  numbers : List (List Char)
  suffix : WrittenSuffix
  known : letter ∈ [[], ['v'], ['V']]
  present : numbers ≠ []
  few : numbers.length ≤ 3
  numerals : ∀ number ∈ numbers, IsCoreNumber number

namespace WrittenVersion

/-- The text behind the letter. -/
def body (written : WrittenVersion) : List Char :=
  rowChars written.numbers ++ written.suffix.chars

/-- The text of a version. -/
def chars (written : WrittenVersion) : List Char :=
  written.letter ++ written.body

/-- The number at a place, counted from zero; a missing one is zero. -/
def number (written : WrittenVersion) (place : Nat) : Nat :=
  (written.numbers.map Text.numeralValue)[place]?.getD 0

/-- The semantic form that a version is written for. -/
def form (written : WrittenVersion) : Semantic where
  major := written.number 0
  minor := written.number 1
  patch := written.number 2
  pre := written.suffix.pre.map Segment.ofChars
  build := written.suffix.build.map Segment.ofChars

/-- Whether a version is in the strict spelling: three numerals without needless zeros. -/
def IsStrict (written : WrittenVersion) : Prop :=
  written.numbers.length = 3 ∧ ∀ number ∈ written.numbers, Semantic.hasLeadingZero number = false

end WrittenVersion

section

variable {part core rest body : List Char} {number : Nat} {values : List Nat}

/-- A number is read leniently from a numeral that fits a word of 64 bits. -/
theorem coreNumber?_eq_some_iff :
    coreNumber? part = some number ↔ IsCoreNumber part ∧ Text.numeralValue part = number := by
  rw [coreNumber?, Number.word64?, Text.naturalBelow?_eq (by decide), Option.filter_eq_some_iff,
    Text.natural?]
  constructor
  · rintro ⟨known, below⟩
    split at known
    · rename_i numeral
      cases known
      exact ⟨⟨numeral, of_decide_eq_true below⟩, rfl⟩
    · cases known
  · rintro ⟨⟨numeral, below⟩, rfl⟩
    exact ⟨if_pos numeral, decide_eq_true below⟩

/-- A number is read strictly from a numeral of this kind without needless zeros. -/
theorem number?_eq_some_iff :
    Semantic.number? part = some number ↔
      (IsCoreNumber part ∧ Semantic.hasLeadingZero part = false) ∧
        Text.numeralValue part = number := by
  rw [Semantic.number?]
  cases Semantic.hasLeadingZero part with
  | true => simp
  | false =>
    rw [if_neg Bool.false_ne_true, and_iff_left rfl]
    exact coreNumber?_eq_some_iff

/-- There is no other character than a digit in a number. -/
theorem IsCoreNumber.isDigit (good : IsCoreNumber part) :
    ∀ character ∈ part, character.isDigit = true :=
  (Text.isNumeral_iff.mp good.1).2

/-- Numbers with points between them are read from the numerals between the points. A
numeral has no point, so cutting at the points undoes putting them between the numerals. -/
theorem mapM_pieces_iff {read? : List Char → Option Nat} {Good : List Char → Prop}
    (reads : ∀ part number, read? part = some number ↔ Good part ∧ Text.numeralValue part = number)
    (numeral : ∀ part, Good part → IsCoreNumber part) :
    (Text.pieces '.' core).mapM read? = some values ↔
      ∃ numbers, numbers ≠ [] ∧ rowChars numbers = core ∧ (∀ number ∈ numbers, Good number) ∧
        numbers.map Text.numeralValue = values := by
  have each (numbers : List (List Char)) : numbers.mapM read? = some values ↔
      (∀ number ∈ numbers, Good number) ∧ numbers.map Text.numeralValue = values := by
    constructor
    · intro read
      have related := (mapM_eq_some_iff.mp read).imp fun part value own => (reads part value).mp own
      constructor
      · intro number among
        obtain ⟨value, _, good, _⟩ := exists_value_of_mem related among
        exact good
      · rw [← List.forall₂_eq_eq_eq, List.forall₂_map_left_iff]
        exact related.imp fun _ _ own => own.2
    · rintro ⟨good, rfl⟩
      exact mapM_eq_some_map fun number among => (reads _ _).mpr ⟨good number among, rfl⟩
  constructor
  · intro read
    exact ⟨Text.pieces '.' core, Text.pieces_ne_nil '.' core, Text.intercalate_pieces '.' core,
      (each _).mp read⟩
  · rintro ⟨numbers, present, rfl, known⟩
    obtain ⟨first, rest, rfl⟩ := List.exists_cons_of_ne_nil present
    have cut : Text.pieces '.' (rowChars (first :: rest)) = first :: rest := by
      apply Text.pieces_intercalate
      intro part among point
      exact Bool.false_ne_true ((numeral part (known.1 part among)).isDigit '.' point)
    rw [cut]
    exact (each _).mpr known

/-- A core has one to three numbers; the missing ones are zero. -/
theorem core?_eq_some_iff {major minor patch : Nat} :
    core? core = some (major, minor, patch) ↔
      ∃ values, (Text.pieces '.' core).mapM coreNumber? = some values ∧ values ≠ [] ∧
        values.length ≤ 3 ∧ values[0]?.getD 0 = major ∧ values[1]?.getD 0 = minor ∧
          values[2]?.getD 0 = patch := by
  rw [core?]
  generalize (Text.pieces '.' core).mapM coreNumber? = read
  rcases read with
    _ | (_ | ⟨first, _ | ⟨second, _ | ⟨third, _ | ⟨fourth, more⟩⟩⟩⟩) <;> simp

/-- A suffix starts with a hyphen or a plus sign. -/
theorem WrittenSuffix.head_chars (suffix : WrittenSuffix) :
    ∀ character ∈ suffix.chars.head?, character = '-' ∨ character = '+' := by
  intro character first
  rw [chars, markedRow, markedRow] at first
  split at first
  · split at first
    · cases first
    · exact .inr (Option.some.inj first).symm
  · exact .inl (Option.some.inj first).symm

/-- What a hyphen or a plus sign starts is cut off. -/
theorem splitCore_append
    (clean : ∀ character ∈ core, character ≠ '-' ∧ character ≠ '+')
    (ended : ∀ character ∈ rest.head?, character = '-' ∨ character = '+') :
    Semantic.splitCore (core ++ rest) = (core, rest) := by
  have inside : ∀ character ∈ core,
      (decide (character ≠ '-') && decide (character ≠ '+')) = true := by
    simpa using clean
  have stop : ∀ character ∈ rest.head?,
      (decide (character ≠ '-') && decide (character ≠ '+')) = false := by
    intro character first
    rcases ended character first with rfl | rfl <;> rfl
  obtain ⟨taken, left⟩ := Text.run_append inside stop
  exact congrArg₂ Prod.mk taken left

/-- A hyphen or a plus sign starts what is cut off. -/
theorem head_splitCore (body : List Char) :
    ∀ character ∈ (Semantic.splitCore body).2.head?, character = '-' ∨ character = '+' := by
  intro character first
  have stopped := List.head?_dropWhile_not
    (fun character => decide (character ≠ '-') && decide (character ≠ '+')) body
  rw [Semantic.splitCore] at first
  rw [Option.mem_def.mp first] at stopped
  simpa [Decidable.or_iff_not_imp_left] using stopped

/-- The core and the rest make up the text. -/
theorem splitCore_join (body : List Char) :
    (Semantic.splitCore body).1 ++ (Semantic.splitCore body).2 = body :=
  List.takeWhile_append_dropWhile

end

namespace WrittenVersion

/-- The numerals of a version have neither a hyphen nor a plus sign. -/
theorem clean (written : WrittenVersion) :
    ∀ character ∈ rowChars written.numbers, character ≠ '-' ∧ character ≠ '+' := by
  intro character member
  rcases Text.mem_intercalate member with rfl | ⟨number, among, inside⟩
  · decide
  · have digit := (written.numerals number among).isDigit character inside
    exact ⟨Text.ne_of_isDigit digit rfl, Text.ne_of_isDigit digit rfl⟩

/-- Behind the letter a version starts with a digit. -/
theorem exists_body_cons (written : WrittenVersion) :
    ∃ digit more, written.body = digit :: more ∧ digit.isDigit = true := by
  obtain ⟨first, rest, spelled⟩ := List.exists_cons_of_ne_nil written.present
  obtain ⟨numeral, _⟩ := written.numerals first (spelled ▸ List.mem_cons_self)
  obtain ⟨present, digits⟩ := Text.isNumeral_iff.mp numeral
  obtain ⟨digit, more, rfl⟩ := List.exists_cons_of_ne_nil present
  refine ⟨digit, ?_⟩
  rw [body, rowChars, spelled]
  cases rest with
  | nil => exact ⟨_, rfl, digits digit List.mem_cons_self⟩
  | cons next others =>
    rw [List.intercalate_cons_cons]
    exact ⟨_, rfl, digits digit List.mem_cons_self⟩

/-- In front of a version there is no letter, or a letter v of either case. -/
theorem letter_cases (written : WrittenVersion) :
    written.letter = [] ∨ written.letter = ['v'] ∨ written.letter = ['V'] := by
  simpa using written.known

/-- One letter v is taken off the text of a version. -/
theorem withoutLetter_chars (written : WrittenVersion) :
    withoutLetter written.chars = written.body := by
  obtain ⟨digit, more, spelled, inside⟩ := written.exists_body_cons
  rcases written.letter_cases with none | small | capital
  · rw [chars, none, List.nil_append, spelled, withoutLetter]
    · rintro _ ⟨⟩
      cases inside
    · rintro _ ⟨⟩
      cases inside
  · rw [chars, small]
    rfl
  · rw [chars, capital]
    rfl

/-- The core and the suffix of a version are told apart. -/
theorem splitCore_body (written : WrittenVersion) :
    Semantic.splitCore written.body = (rowChars written.numbers, written.suffix.chars) :=
  splitCore_append written.clean written.suffix.head_chars

/-- The suffix of a version is read. -/
theorem suffix?_chars (written : WrittenVersion) :
    Semantic.suffix? written.suffix.chars = some (written.form.pre, written.form.build) :=
  Semantic.suffix?_eq_some_iff.mpr ⟨written.suffix, rfl, rfl, rfl⟩

end WrittenVersion

/-- A text is a letter v or none, and what is left without it. -/
theorem exists_letter (text : List Char) :
    ∃ letter ∈ [[], ['v'], ['V']], text = letter ++ withoutLetter text := by
  unfold withoutLetter
  split
  · exact ⟨['v'], by simp, rfl⟩
  · exact ⟨['V'], by simp, rfl⟩
  · exact ⟨[], by simp, rfl⟩

/-- A text has a semantic form exactly when it is written as a version with this form.

Proof: the reader drops a letter in front, takes the core up to the first character that
does not belong to it, and reads what is behind as a suffix. Each of these is read exactly
when it is written so, and joining the parts gives the text. -/
theorem semantic?_eq_some_iff {text : List Char} {form : Semantic} :
    semantic? text = some form ↔ ∃ written : WrittenVersion, written.chars = text ∧
      written.form = form := by
  constructor
  · intro read
    have joined := splitCore_join (withoutLetter text)
    simp only [semantic?] at read
    split at read
    · rename_i major minor patch pre build numbers behind
      cases read
      obtain ⟨values, found, _, few, rfl, rfl, rfl⟩ := core?_eq_some_iff.mp numbers
      obtain ⟨numerals, present, core, good, rfl⟩ :=
        (mapM_pieces_iff (fun _ _ => coreNumber?_eq_some_iff) fun _ => id).mp found
      obtain ⟨suffix, rest, rfl, rfl⟩ := Semantic.suffix?_eq_some_iff.mp behind
      obtain ⟨letter, among, spelled⟩ := exists_letter text
      rw [List.length_map] at few
      refine ⟨⟨letter, numerals, suffix, among, present, few, good⟩, ?_, rfl⟩
      rw [spelled, ← joined, ← core, ← rest]
      rfl
    · cases read
  · rintro ⟨written, rfl, rfl⟩
    have numbers : core? (rowChars written.numbers) =
        some (written.number 0, written.number 1, written.number 2) := by
      refine core?_eq_some_iff.mpr ⟨_,
        (mapM_pieces_iff (fun _ _ => coreNumber?_eq_some_iff) fun _ => id).mpr
          ⟨written.numbers, written.present, rfl, written.numerals, rfl⟩, ?_, ?_, rfl, rfl, rfl⟩
      · simpa using written.present
      · rw [List.length_map]
        exact written.few
    simp only [semantic?, written.withoutLetter_chars, written.splitCore_body, numbers,
      written.suffix?_chars]
    rfl

/-- The strict spelling is that of the versions without a letter, with three numerals and no
needless zeros.

Proof: as with the lenient form the text is a core and a suffix. The strict reader asks for
exactly three numbers in the core, none of them with a needless zero, and knows no letter. -/
theorem ofStrict?_eq_some_iff {body : List Char} {form : Semantic} :
    Semantic.ofStrict? body = some form ↔ ∃ written : WrittenVersion, written.letter = [] ∧
      written.IsStrict ∧ written.chars = body ∧ written.form = form := by
  have strict (core : List Char) (values : List Nat) :=
    @mapM_pieces_iff core values _ _ (fun _ _ => number?_eq_some_iff) fun _ => And.left
  constructor
  · intro read
    have joined := splitCore_join body
    simp only [Semantic.ofStrict?] at read
    split at read
    · rename_i major minor patch pre build found behind
      cases read
      obtain ⟨numerals, present, core, good, values⟩ := (strict _ _).mp found
      obtain ⟨suffix, rest, rfl, rfl⟩ := Semantic.suffix?_eq_some_iff.mp behind
      have three : numerals.length = 3 := by
        rw [← List.length_map Text.numeralValue, values]
        rfl
      refine ⟨⟨[], numerals, suffix, by simp, present, Nat.le_of_eq three,
        fun number among => (good number among).1⟩, rfl,
        ⟨three, fun number among => (good number among).2⟩, ?_, ?_⟩
      · rw [← joined, ← core, ← rest]
        rfl
      · simp only [WrittenVersion.form, WrittenVersion.number, values]
        rfl
    · cases read
  · rintro ⟨written, letterless, ⟨three, minimal⟩, rfl, rfl⟩
    obtain ⟨first, second, third, spelled⟩ := List.length_eq_three.mp three
    have found := (strict (rowChars written.numbers) (written.numbers.map Text.numeralValue)).mpr
      ⟨written.numbers, written.present, rfl,
        fun number among => ⟨written.numerals number among, minimal number among⟩, rfl⟩
    have whole : written.chars = written.body := by rw [WrittenVersion.chars, letterless]; rfl
    rw [Semantic.ofStrict?, whole, written.splitCore_body]
    simp only [found, written.suffix?_chars]
    rw [spelled]
    simp [WrittenVersion.form, WrittenVersion.number, spelled]

/-- The text of three numbers with points between them. -/
def decimalRow (major minor patch : Nat) : List Char :=
  rowChars [Text.decimalChars major, Text.decimalChars minor, Text.decimalChars patch]

/-- Reads the strict spelling of the three numbers of a text, with what stands behind them. -/
def rebuilt? (body : List Char) : Option Semantic :=
  (core? (Semantic.splitCore body).1).bind fun (major, minor, patch) =>
    Semantic.ofStrict? (decimalRow major minor patch ++ (Semantic.splitCore body).2)

/-- A number in decimal has no needless zeros. With a zero in front of other digits there
would be more digits than the number needs. -/
theorem hasLeadingZero_decimalChars (value : Nat) :
    Semantic.hasLeadingZero (Text.decimalChars value) = false := by
  rw [Bool.eq_false_iff]
  intro needless
  rw [Semantic.hasLeadingZero, Bool.and_eq_true, beq_iff_eq, decide_eq_true_eq] at needless
  obtain ⟨rest, spelled⟩ := List.head?_eq_some_iff.mp needless.1
  have long : 0 < rest.length := by
    have two := needless.2
    rw [spelled, List.length_cons] at two
    omega
  -- Behind a zero there is one digit less than the number has.
  have small : value < 10 ^ rest.length := by
    have zero : Text.digitValue '0' = 0 := rfl
    have number := Text.numeralValue_decimalChars value
    rw [spelled, Text.numeralValue_cons, zero, Nat.zero_mul, Nat.zero_add] at number
    rw [← number]
    apply Text.numeralValue_lt
    intro digit member
    exact Text.isDigit_of_mem_decimalChars (spelled ▸ List.mem_cons_of_mem '0' member)
  have short : (Text.decimalChars value).length ≤ rest.length :=
    (Nat.length_toDigits_le_iff (by decide) long).mpr small
  rw [spelled, List.length_cons] at short
  omega

/-- A number that fits a word of 64 bits is a numeral of a version when it is written in
decimal. -/
theorem isCoreNumber_decimalChars {value : Nat} (small : value < Number.wordBound) :
    IsCoreNumber (Text.decimalChars value) :=
  ⟨Number.isNumeral_decimalChars value, by rwa [Text.numeralValue_decimalChars]⟩

/-- The numbers of a core fit a word of 64 bits. -/
theorem lt_wordBound_of_core? {core : List Char} {major minor patch : Nat}
    (read : core? core = some (major, minor, patch)) :
    ∀ number ∈ [major, minor, patch], number < Number.wordBound := by
  obtain ⟨values, found, _, _, rfl, rfl, rfl⟩ := core?_eq_some_iff.mp read
  obtain ⟨numbers, _, _, good, rfl⟩ :=
    (mapM_pieces_iff (fun _ _ => coreNumber?_eq_some_iff) fun _ => id).mp found
  have fits (place : Nat) : (numbers.map Text.numeralValue)[place]?.getD 0 < Number.wordBound := by
    cases known : (numbers.map Text.numeralValue)[place]? with
    | none => decide
    | some value =>
      obtain ⟨number, among, rfl⟩ := List.mem_map.mp (List.mem_of_getElem? known)
      exact (good number among).2
  intro number member
  simp only [List.mem_cons, List.not_mem_nil, or_false] at member
  rcases member with rfl | rfl | rfl
  · exact fits 0
  · exact fits 1
  · exact fits 2

/-- Three numbers in decimal and a suffix are in the strict spelling. Numbers in decimal
have no needless zeros and are cut where the points were put. -/
theorem ofStrict?_decimalRow {major minor patch : Nat}
    (small : ∀ number ∈ [major, minor, patch], number < Number.wordBound) {rest : List Char}
    (ended : ∀ character ∈ rest.head?, character = '-' ∨ character = '+') :
    Semantic.ofStrict? (decimalRow major minor patch ++ rest) =
      (Semantic.suffix? rest).map fun parts => ⟨major, minor, patch, parts.1, parts.2⟩ := by
  have clean : ∀ character ∈ decimalRow major minor patch, character ≠ '-' ∧ character ≠ '+' := by
    intro character member
    rcases Text.mem_intercalate member with rfl | ⟨part, among, inside⟩
    · decide
    · have named : part ∈ [major, minor, patch].map Text.decimalChars := among
      obtain ⟨number, _, rfl⟩ := List.mem_map.mp named
      have digit := Text.isDigit_of_mem_decimalChars inside
      exact ⟨Text.ne_of_isDigit digit rfl, Text.ne_of_isDigit digit rfl⟩
  have found : (Text.pieces '.' (decimalRow major minor patch)).mapM Semantic.number? =
      some [major, minor, patch] := by
    refine (mapM_pieces_iff (fun _ _ => number?_eq_some_iff) fun _ => And.left).mpr
      ⟨[major, minor, patch].map Text.decimalChars, List.cons_ne_nil _ _, rfl, ?_, ?_⟩
    · intro part among
      obtain ⟨number, member, rfl⟩ := List.mem_map.mp among
      exact ⟨isCoreNumber_decimalChars (small number member), hasLeadingZero_decimalChars number⟩
    · simp [Text.numeralValue_decimalChars]
  rw [Semantic.ofStrict?, splitCore_append clean ended]
  simp only [found]
  cases Semantic.suffix? rest <;> rfl

/-- The strict reading of the rebuilt text is the lenient reading of the text. -/
theorem rebuilt?_withoutLetter (text : List Char) :
    rebuilt? (withoutLetter text) = semantic? text := by
  simp only [rebuilt?, semantic?]
  cases read : core? (Semantic.splitCore (withoutLetter text)).1 with
  | none => rfl
  | some numbers =>
    obtain ⟨major, minor, patch⟩ := numbers
    have rebuilt := ofStrict?_decimalRow (lt_wordBound_of_core? read)
      (head_splitCore (withoutLetter text))
    simp only [Option.bind_some, rebuilt]
    cases Semantic.suffix? (Semantic.splitCore (withoutLetter text)).2 <;> rfl

/-- A text in the strict spelling behind a letter v or none has its strict form. -/
theorem semantic?_of_ofStrict? {letter body : List Char} {form : Semantic}
    (known : letter ∈ [[], ['v'], ['V']]) (strict : Semantic.ofStrict? body = some form) :
    semantic? (letter ++ body) = some form := by
  obtain ⟨written, letterless, _, rfl, rfl⟩ := ofStrict?_eq_some_iff.mp strict
  refine semantic?_eq_some_iff.mpr ⟨{ written with letter := letter, known := known }, ?_, rfl⟩
  rw [WrittenVersion.chars, WrittenVersion.chars, letterless]
  rfl

/-- A version has a semantic form exactly when its text without blanks around it is written
as one, and then it is the form that this is written for. A body in the strict spelling has
its strict form, and any other body is read strictly from its three numbers in decimal with
its suffix.

Proof: the first part is the grammar of the lenient reader, for trimmed texts. A strict body
is written without a letter and with three numerals, and a letter in front of it changes
nothing. If the strict reader refuses a body, it is rebuilt with all three numbers in
decimal and read again, which gives the lenient form. -/
theorem semantic_form_iff_written (text : String) :
    (∀ form, (ofText text).semantic = some form ↔
      ∃ written : WrittenVersion, written.chars = Text.trimChars text.toList ∧
        written.form = form) ∧
    (∀ letter body form, letter ∈ [[], ['v'], ['V']] → Text.trimChars text.toList = letter ++ body →
      Semantic.ofStrict? body = some form → (ofText text).semantic = some form) ∧
    (ofText text).semantic =
      (Semantic.ofStrict? (withoutLetter (Text.trimChars text.toList))).or
        (rebuilt? (withoutLetter (Text.trimChars text.toList))) := by
  have own : (ofText text).semantic = semantic? (Text.trimChars text.toList) := rfl
  refine ⟨?_, ?_, ?_⟩
  · intro form
    rw [own]
    exact semantic?_eq_some_iff
  · intro letter body form known trimmed strict
    rw [own, trimmed]
    exact semantic?_of_ofStrict? known strict
  · rw [rebuilt?_withoutLetter, own]
    cases strict : Semantic.ofStrict? (withoutLetter (Text.trimChars text.toList)) with
    | none => rfl
    | some form =>
      obtain ⟨letter, known, spelled⟩ := exists_letter (Text.trimChars text.toList)
      rw [Option.some_or, spelled]
      exact semantic?_of_ofStrict? known strict

/-- A text in the strict spelling behind a letter, with blanks around it and zeros in front of
a number of its build metadata. -/
theorem semantic_form_behind_letter :
    Text.trimChars " V1.2.3-rc.1+007 ".toList = ['V'] ++ "1.2.3-rc.1+007".toList ∧
    Semantic.ofStrict? "1.2.3-rc.1+007".toList =
      some ⟨1, 2, 3, [.word "rc", .numeral 0 "1"], [.numeral 2 "7"]⟩ ∧
    (ofText " V1.2.3-rc.1+007 ").semantic =
      some ⟨1, 2, 3, [.word "rc", .numeral 0 "1"], [.numeral 2 "7"]⟩ ∧
    ∃ written : WrittenVersion, written.chars = Text.trimChars " V1.2.3-rc.1+007 ".toList := by
  have grammar := semantic_form_iff_written " V1.2.3-rc.1+007 "
  have form := grammar.2.1 ['V'] "1.2.3-rc.1+007".toList
    ⟨1, 2, 3, [.word "rc", .numeral 0 "1"], [.numeral 2 "7"]⟩
    (by decide) (by decide +kernel) (by decide +kernel)
  obtain ⟨written, spelled, _⟩ := (grammar.1 _).mp form
  exact ⟨by decide +kernel, by decide +kernel, form, written, spelled⟩

end EventSieve.Version
