import EventSieve.Proofs.Number.Numerals
import EventSieve.Proofs.Text.Pieces
import EventSieve.Time.Zone

/-!
# Bare offsets and their grammar

An offset is a sign, hours of one or two digits, and minutes and seconds of two digits
behind them, each with a colon in front or without. The reader does not follow this
grammar: it drops all colons and tells the parts by how many digits are left.

Three or five digits are hours of one digit with minutes behind them, and these the
reader refuses. One, two, four or six digits it reads wherever colons stood among them,
and the grammar has a text like this only when its colons stand between pairs of digits.
All other texts are read as the grammar says.
-/

namespace EventSieve.Time

/-- Two digits of an offset, below 60, with a colon in front of them or without. -/
structure OffsetPart where
  colon : Bool
  tens : Char
  ones : Char
  digits : ∀ digit ∈ [tens, ones], digit.isDigit = true
  below : Text.numeralValue [tens, ones] < 60

namespace OffsetPart

/-- The two digits. -/
def pair (part : OffsetPart) : List Char :=
  [part.tens, part.ones]

/-- The two digits, behind the colon if there is one. -/
def chars (part : OffsetPart) : List Char :=
  (if part.colon then [':'] else []) ++ part.pair

/-- The number of the two digits. -/
def value (part : OffsetPart) : Nat :=
  Text.numeralValue part.pair

end OffsetPart

/-- An offset as the grammar has it: a sign, hours, and minutes and seconds behind them. -/
structure WrittenOffset where
  negative : Bool
  hours : List Char
  parts : List OffsetPart
  numeral : Text.isNumeral hours = true
  width : hours.length ≤ 2
  few : parts.length ≤ 2

namespace WrittenOffset

/-- The sign of an offset. -/
def sign (written : WrittenOffset) : Char :=
  if written.negative then '-' else '+'

/-- What stands behind the sign. -/
def body (written : WrittenOffset) : List Char :=
  written.hours ++ written.parts.flatMap OffsetPart.chars

/-- The text of an offset. -/
def chars (written : WrittenOffset) : List Char :=
  written.sign :: written.body

/-- The digits of an offset. -/
def digits (written : WrittenOffset) : List Char :=
  written.hours ++ written.parts.flatMap OffsetPart.pair

/-- The seconds of minutes and seconds. -/
def sixtieths : List Nat → Nat
  | [] => 0
  | [minutes] => minutes * 60
  | minutes :: seconds :: _ => minutes * 60 + seconds

/-- The seconds that an offset counts. -/
def seconds (written : WrittenOffset) : Nat :=
  Text.numeralValue written.hours * 3600 + sixtieths (written.parts.map OffsetPart.value)

/-- The seconds east of universal time. -/
def east (written : WrittenOffset) : Int :=
  if written.negative then -(written.seconds : Int) else written.seconds

/-- Whether the hours have two digits or stand alone. -/
def IsPaired (written : WrittenOffset) : Prop :=
  written.hours.length = 2 ∨ written.parts = []

end WrittenOffset

/-- Whether a text is an offset of the grammar, and denotes a zone. -/
def Zone.SpelledBy (zone : Zone) (text : List Char) : Prop :=
  ∃ written : WrittenOffset, written.chars = text ∧ fixed? written.east = some zone

/-- Whether colons stand between pairs only: what stands between two of them, or between
one and an end, is not empty and can be cut into pairs. -/
def SplitsPairs (body : List Char) : Prop :=
  ∀ piece ∈ Text.pieces ':' body, piece ≠ [] ∧ piece.length % 2 = 0

instance (body : List Char) : Decidable (SplitsPairs body) :=
  inferInstanceAs (Decidable (∀ piece ∈ Text.pieces ':' body, piece ≠ [] ∧ piece.length % 2 = 0))

/-- Whether a text is an offset with hours of one digit and minutes behind them. -/
def HasShortHours (text : List Char) : Prop :=
  ∃ written : WrittenOffset, written.chars = text ∧ ¬ written.IsPaired

/-- Whether a text has the sign and the digits of an offset that denotes a zone, and a
colon elsewhere than between pairs of digits. -/
def HasStrayColon (text : List Char) : Prop :=
  ∃ (written : WrittenOffset) (body : List Char), written.IsPaired ∧ written.east.natAbs < 86400 ∧
    text = written.sign :: body ∧ body.filter (· ≠ ':') = written.digits ∧
      ':' ∈ body ∧ ¬ SplitsPairs body

section

variable {row rest body : List Char}

/-- Characters without a colon are split into pairs when they are some pairs. -/
theorem splitsPairs_of_not_mem (clean : ':' ∉ row) :
    SplitsPairs row ↔ row ≠ [] ∧ row.length % 2 = 0 := by
  rw [SplitsPairs, Text.pieces_of_not_mem clean, List.forall_mem_singleton]

/-- A colon splits pairs when there are pairs in front of it and behind it. -/
theorem splitsPairs_append (clean : ':' ∉ row) :
    SplitsPairs (row ++ ':' :: rest) ↔ (row ≠ [] ∧ row.length % 2 = 0) ∧ SplitsPairs rest := by
  rw [SplitsPairs, Text.pieces_append clean, List.forall_mem_cons]
  rfl

/-- What is split into pairs starts with a character that is no colon. -/
theorem SplitsPairs.exists_cons (splits : SplitsPairs body) :
    ∃ first others, body = first :: others ∧ first ≠ ':' := by
  cases body with
  | nil => exact absurd rfl ((splitsPairs_of_not_mem List.not_mem_nil).mp splits).1
  | cons first others =>
    refine ⟨first, others, rfl, ?_⟩
    rintro rfl
    exact absurd rfl (@splitsPairs_append [] others List.not_mem_nil |>.mp splits).1.1

/-- What is split into pairs starts with two characters that are no colons. -/
theorem SplitsPairs.front (splits : SplitsPairs body) {first second : Char} {others : List Char}
    (digits : body.filter (· ≠ ':') = first :: second :: others) :
    ∃ tail, body = first :: second :: tail ∧ tail.filter (· ≠ ':') = others := by
  obtain ⟨character, more, rfl, solid⟩ := splits.exists_cons
  rw [List.filter_cons_of_pos (by simpa using solid)] at digits
  obtain ⟨rfl, later⟩ := List.cons.inj digits
  cases more with
  | nil => cases later
  | cons next tail =>
    by_cases colon : next = ':'
    · subst colon
      have odd := (@splitsPairs_append [character] tail (by simpa using Ne.symm solid)).mp splits
      exact absurd odd.1.2 Nat.one_ne_zero
    · rw [List.filter_cons_of_pos (by simpa using colon)] at later
      obtain ⟨rfl, remaining⟩ := List.cons.inj later
      exact ⟨tail, rfl, remaining⟩

/-- A row without colons is what is left of it without colons. -/
theorem filter_of_not_mem (clean : ':' ∉ row) : row.filter (· ≠ ':') = row := by
  rw [List.filter_eq_self]
  intro character member
  simpa using fun same : character = ':' => clean (same ▸ member)

/-- What is split into pairs has an even number of other characters. -/
theorem SplitsPairs.even {body : List Char} (splits : SplitsPairs body) :
    (body.filter (· ≠ ':')).length % 2 = 0 := by
  by_cases colon : ':' ∈ body
  · obtain ⟨front, back, rfl, clean⟩ := List.eq_append_cons_of_mem colon
    obtain ⟨⟨_, own⟩, later⟩ := (splitsPairs_append clean).mp splits
    have others := SplitsPairs.even later
    rw [List.filter_append, filter_of_not_mem clean, List.filter_cons_of_neg (by simp),
      List.length_append]
    omega
  · rw [filter_of_not_mem colon]
    exact ((splitsPairs_of_not_mem colon).mp splits).2
termination_by body.length

/-- What stands behind some pairs is split into pairs itself, behind a colon if there is
one. Either the next character is a colon, or the digits up to the next colon are even in
number, as those in front of them are. -/
theorem SplitsPairs.behind (clean : ':' ∉ row) (even : row.length % 2 = 0)
    (splits : SplitsPairs (row ++ rest)) (present : rest ≠ []) :
    ∃ (colon : Bool) (more : List Char), rest = (if colon then [':'] else []) ++ more ∧
      SplitsPairs more := by
  obtain ⟨first, others, rfl⟩ := List.exists_cons_of_ne_nil present
  by_cases colon : first = ':'
  · subst colon
    exact ⟨true, others, rfl, ((splitsPairs_append clean).mp splits).2⟩
  · refine ⟨false, first :: others, rfl, ?_⟩
    by_cases later : ':' ∈ first :: others
    · obtain ⟨front, back, same, free⟩ := List.eq_append_cons_of_mem later
      have filled : front ≠ [] := by
        rintro rfl
        exact colon (List.cons.inj same).1
      rw [same] at splits ⊢
      rw [← List.append_assoc, splitsPairs_append (List.not_mem_append clean free),
        List.length_append] at splits
      exact (splitsPairs_append free).mpr ⟨⟨filled, by omega⟩, splits.2⟩
    · rw [splitsPairs_of_not_mem (List.not_mem_append clean later), List.length_append] at splits
      exact (splitsPairs_of_not_mem later).mpr ⟨present, by omega⟩

end

namespace OffsetPart

/-- The digits are two. -/
theorem even_pair (part : OffsetPart) : part.pair.length % 2 = 0 :=
  Nat.mod_self 2

/-- There is no colon between the digits. -/
theorem not_mem_pair (part : OffsetPart) : ':' ∉ part.pair := by
  intro colon
  exact Bool.false_ne_true (part.digits ':' colon)

/-- Without the colon in front the digits are left. -/
theorem filter_chars (part : OffsetPart) : part.chars.filter (· ≠ ':') = part.pair := by
  rw [chars, List.filter_append, filter_of_not_mem part.not_mem_pair]
  cases part.colon <;> rfl

/-- Without colons the digits of all parts are left. -/
theorem filter_flatMap_chars (parts : List OffsetPart) :
    (parts.flatMap chars).filter (· ≠ ':') = parts.flatMap pair := by
  induction parts with
  | nil => rfl
  | cons part rest inductionHypothesis =>
    rw [List.flatMap_cons, List.flatMap_cons, List.filter_append, filter_chars, inductionHypothesis]

section

variable {row : List Char}

/-- The colons of parts behind some pairs stand between pairs. The induction is on the
parts. Behind a colon a new row of pairs begins; without one the part joins the pairs in
front. -/
theorem splitsPairs (clean : ':' ∉ row) (present : row ≠ []) (even : row.length % 2 = 0)
    (parts : List OffsetPart) : SplitsPairs (row ++ parts.flatMap chars) := by
  induction parts generalizing row with
  | nil =>
    rw [List.flatMap_nil, List.append_nil]
    exact (splitsPairs_of_not_mem clean).mpr ⟨present, even⟩
  | cons part rest inductionHypothesis =>
    rw [List.flatMap_cons, chars]
    cases part.colon with
    | true =>
      have later := inductionHypothesis part.not_mem_pair (List.cons_ne_nil _ _) part.even_pair
      rw [if_pos rfl, List.append_assoc, List.singleton_append, splitsPairs_append clean]
      exact ⟨⟨present, even⟩, later⟩
    | false =>
      rw [if_neg Bool.false_ne_true, List.nil_append, ← List.append_assoc]
      apply inductionHypothesis
      · exact List.not_mem_append clean part.not_mem_pair
      · exact List.append_ne_nil_of_left_ne_nil present _
      · rw [List.length_append]
        exact (Nat.add_mod_right row.length 2).trans even

/-- Colons among the digits of parts, behind some pairs, are colons in front of parts when
they stand between pairs. The induction is on the parts of which the digits are given; each
takes its two digits, and the colon in front of them if there is one. -/
theorem exists_of_splitsPairs (clean : ':' ∉ row) (even : row.length % 2 = 0)
    {tail : List Char} {parts : List OffsetPart} (splits : SplitsPairs (row ++ tail))
    (digits : tail.filter (· ≠ ':') = parts.flatMap pair) :
    ∃ others : List OffsetPart, tail = others.flatMap chars ∧
      others.map value = parts.map value := by
  induction parts generalizing row tail with
  | nil =>
    refine ⟨[], ?_, rfl⟩
    by_contra present
    obtain ⟨colon, more, rfl, later⟩ := splits.behind clean even present
    obtain ⟨first, others, rfl, solid⟩ := later.exists_cons
    have none := List.filter_eq_nil_iff.mp digits first (by simp)
    exact none (by simpa using solid)
  | cons part rest inductionHypothesis =>
    have present : tail ≠ [] := by
      rintro rfl
      cases digits
    obtain ⟨colon, more, rfl, later⟩ := splits.behind clean even present
    have own : more.filter (· ≠ ':') = part.tens :: part.ones :: rest.flatMap pair := by
      rw [List.filter_append] at digits
      cases colon <;> exact digits
    obtain ⟨behind, rfl, remaining⟩ := later.front own
    obtain ⟨others, rfl, same⟩ :=
      @inductionHypothesis part.pair part.not_mem_pair part.even_pair behind later remaining
    refine ⟨{ part with colon := colon } :: others, ?_, congrArg (part.value :: ·) same⟩
    rw [List.flatMap_cons, chars, List.append_assoc]
    rfl

end

end OffsetPart

namespace WrittenOffset

variable {written : WrittenOffset}

/-- There is no colon in the hours. -/
theorem not_mem_hours (written : WrittenOffset) : ':' ∉ written.hours := by
  intro colon
  exact Bool.false_ne_true ((Text.isNumeral_iff.mp written.numeral).2 ':' colon)

/-- The hours have one digit or two. -/
theorem length_hours (written : WrittenOffset) :
    written.hours.length = 1 ∨ written.hours.length = 2 := by
  have filled := List.length_pos_iff.mpr (Text.isNumeral_iff.mp written.numeral).1
  have width := written.width
  omega

/-- Without colons the digits are left. -/
theorem filter_body (written : WrittenOffset) :
    written.body.filter (· ≠ ':') = written.digits := by
  rw [body, List.filter_append, filter_of_not_mem written.not_mem_hours,
    OffsetPart.filter_flatMap_chars, digits]

/-- There are two digits for every part. -/
theorem length_digits (written : WrittenOffset) :
    written.digits.length = written.hours.length + 2 * written.parts.length := by
  have pairs (parts : List OffsetPart) :
      (parts.flatMap OffsetPart.pair).length = 2 * parts.length := by
    induction parts with
    | nil => rfl
    | cons part rest inductionHypothesis =>
      rw [List.flatMap_cons, List.length_append, inductionHypothesis, List.length_cons,
        Nat.mul_succ, Nat.add_comm]
      rfl
  rw [digits, List.length_append, pairs]

/-- The digits are a numeral. -/
theorem isNumeral_digits (written : WrittenOffset) : Text.isNumeral written.digits = true := by
  obtain ⟨filled, hours⟩ := Text.isNumeral_iff.mp written.numeral
  refine Text.isNumeral_iff.mpr ⟨List.append_ne_nil_of_left_ne_nil filled _, ?_⟩
  intro digit member
  rcases List.mem_append.mp member with own | later
  · exact hours digit own
  · obtain ⟨part, _, own⟩ := List.mem_flatMap.mp later
    exact part.digits digit own

/-- The digits of an offset with paired hours give its seconds. -/
theorem offsetSeconds?_digits (paired : written.IsPaired) :
    Zone.offsetSeconds? written.digits = some written.seconds := by
  obtain ⟨negative, hours, parts, numeral, width, few⟩ := written
  by_cases alone : parts = []
  · subst alone
    have short : hours.length = 1 ∨ hours.length = 2 :=
      length_hours ⟨negative, hours, [], numeral, width, few⟩
    simp [Zone.offsetSeconds?, digits, seconds, sixtieths, short, List.take_of_length_le width]
  · obtain ⟨tens, ones, rfl⟩ := List.length_eq_two.mp (paired.resolve_right alone)
    match parts, few with
    | [minutes], _ =>
      have below := minutes.below
      simp [Zone.offsetSeconds?, digits, seconds, sixtieths, OffsetPart.pair, OffsetPart.value,
        below]
    | [minutes, seconds], _ =>
      have below := minutes.below
      have belowToo := seconds.below
      simp [Zone.offsetSeconds?, digits, WrittenOffset.seconds, sixtieths, OffsetPart.pair,
        OffsetPart.value, below, belowToo, Nat.add_assoc]

/-- Digits that give seconds are those of an offset with paired hours.

Proof: the reader goes by the number of digits. Up to two are hours alone; four are hours
and minutes, and six have seconds behind them, each below sixty. Any other number of digits
is refused. -/
theorem exists_of_offsetSeconds? {digits : List Char} (numeral : Text.isNumeral digits = true)
    {seconds : Nat} (read : Zone.offsetSeconds? digits = some seconds) (negative : Bool) :
    ∃ written : WrittenOffset, written.negative = negative ∧ written.IsPaired ∧
      written.digits = digits := by
  obtain ⟨_, all⟩ := Text.isNumeral_iff.mp numeral
  have hours (tens ones : Char) (others : List Char) (same : digits = [tens, ones] ++ others) :
      Text.isNumeral [tens, ones] = true :=
    Text.isNumeral_iff.mpr ⟨List.cons_ne_nil _ _,
      fun digit member => all digit (same ▸ List.mem_append_left others member)⟩
  simp only [Zone.offsetSeconds?] at read
  split at read
  · have width : digits.length ≤ 2 := by omega
    exact ⟨⟨negative, digits, [], numeral, width, Nat.zero_le 2⟩, rfl, .inr rfl,
      List.append_nil digits⟩
  · split at read
    · rename_i four
      match digits, four with
      | [tens, ones, minuteTens, minuteOnes], _ =>
        split at read
        · rename_i below
          let minutes : OffsetPart := ⟨false, minuteTens, minuteOnes,
            fun digit member => all digit (List.mem_append_right [tens, ones] member), below⟩
          exact ⟨⟨negative, [tens, ones], [minutes], hours tens ones _ rfl, Nat.le_refl 2,
            Nat.le_succ 1⟩, rfl, .inl rfl, rfl⟩
        · cases read
    · split at read
      · rename_i six
        match digits, six with
        | [tens, ones, minuteTens, minuteOnes, secondTens, secondOnes], _ =>
          split at read
          · rename_i below
            let minutes : OffsetPart := ⟨false, minuteTens, minuteOnes,
              fun digit member => all digit (List.mem_append_right [tens, ones]
                (List.mem_append_left [secondTens, secondOnes] member)), below.1⟩
            let seconds : OffsetPart := ⟨false, secondTens, secondOnes,
              fun digit member => all digit (List.mem_append_right [_, _, _, _] member), below.2⟩
            exact ⟨⟨negative, [tens, ones], [minutes, seconds], hours tens ones _ rfl,
              Nat.le_refl 2, Nat.le_refl 2⟩, rfl, .inl rfl, rfl⟩
          · cases read
      · cases read

/-- Minutes and seconds are less than an hour. -/
theorem sixtieths_lt (written : WrittenOffset) :
    sixtieths (written.parts.map OffsetPart.value) < 3600 := by
  match written.parts, written.few with
  | [], _ => exact Nat.zero_lt_succ _
  | [minutes], _ =>
    have below : minutes.value < 60 := minutes.below
    simp only [List.map_cons, List.map_nil, sixtieths]
    omega
  | [minutes, seconds], _ =>
    have below : minutes.value < 60 := minutes.below
    have belowToo : seconds.value < 60 := seconds.below
    simp only [List.map_cons, List.map_nil, sixtieths]
    omega

/-- An offset with hours of one digit is below 24 hours. -/
theorem natAbs_east_lt (one : written.hours.length = 1) : written.east.natAbs < 86400 := by
  obtain ⟨digit, hours⟩ := List.length_eq_one_iff.mp one
  have inside : digit.isDigit = true :=
    (Text.isNumeral_iff.mp written.numeral).2 digit (hours ▸ List.mem_cons_self)
  have value : Text.numeralValue written.hours = Text.digitValue digit := by
    rw [hours, Text.numeralValue, Text.extend_cons]
    exact Nat.zero_add _
  have small := Text.digitValue_lt inside
  have rest := written.sixtieths_lt
  have size : written.east.natAbs = written.seconds := by
    rw [east]
    split <;> simp
  rw [size, seconds, value]
  omega

/-- The colons of an offset with hours of two digits stand between pairs. -/
theorem splitsPairs_body (two : written.hours.length = 2) : SplitsPairs written.body := by
  apply OffsetPart.splitsPairs written.not_mem_hours (Text.isNumeral_iff.mp written.numeral).1
  rw [two]

/-- A row with the digits of an offset with paired hours is one itself when its colons stand
between pairs.

Proof: hours of one digit stand alone, and a single digit has no room for a colon between
pairs. Hours of two digits are the first pair, and the parts behind them are found one after
another, with their colons, so the values stay the same. -/
theorem exists_of_filter (paired : written.IsPaired) {body : List Char}
    (digits : body.filter (· ≠ ':') = written.digits) (tidy : ':' ∈ body → SplitsPairs body) :
    ∃ other : WrittenOffset, other.body = body ∧ other.sign = written.sign ∧
      other.east = written.east := by
  have counted := written.length_digits
  rcases written.length_hours with one | two
  · have alone : written.parts = [] := paired.resolve_left (by omega)
    have clean : ':' ∉ body := by
      intro colon
      have even := (tidy colon).even
      rw [digits, counted, one, alone] at even
      cases even
    rw [filter_of_not_mem clean] at digits
    refine ⟨written, ?_, rfl, rfl⟩
    rw [digits, WrittenOffset.body, WrittenOffset.digits, alone]
    rfl
  · have splits : SplitsPairs body := by
      by_cases colon : ':' ∈ body
      · exact tidy colon
      · rw [splitsPairs_of_not_mem colon, ← List.length_pos_iff, ← filter_of_not_mem colon, digits,
          counted]
        omega
    obtain ⟨tens, ones, hours⟩ := List.length_eq_two.mp two
    rw [WrittenOffset.digits, hours] at digits
    obtain ⟨tail, rfl, remaining⟩ := splits.front digits
    have clean : ':' ∉ [tens, ones] := hours ▸ written.not_mem_hours
    obtain ⟨others, rfl, values⟩ := @OffsetPart.exists_of_splitsPairs [tens, ones] clean
      (Nat.mod_self 2) tail written.parts splits remaining
    have few : others.length ≤ 2 := by
      have same := congrArg List.length values
      rw [List.length_map, List.length_map] at same
      exact same ▸ written.few
    refine ⟨{ written with parts := others, few := few }, ?_, rfl, ?_⟩
    · exact congrArg (· ++ others.flatMap OffsetPart.chars) hours
    · simp only [east, seconds, values]

/-- The colons of an offset with the digits of one with paired hours stand between pairs. -/
theorem splitsPairs_of_digits (paired : written.IsPaired) {other : WrittenOffset}
    (same : other.digits = written.digits) (colon : ':' ∈ other.body) : SplitsPairs other.body := by
  rcases other.length_hours with one | two
  · -- An odd number of digits leaves one digit for paired hours, and nothing behind it.
    have counted := congrArg List.length same
    rw [length_digits, length_digits] at counted
    have alone : other.parts = [] := by
      rcases paired with two | none
      · omega
      · rw [none, List.length_nil] at counted
        have width := written.width
        exact List.length_eq_zero_iff.mp (by omega)
    rw [body, alone, List.flatMap_nil, List.append_nil] at colon
    exact absurd colon other.not_mem_hours
  · exact splitsPairs_body two

end WrittenOffset

namespace Zone

/-- An offset is read from its sign and the seconds of the digits behind it. -/
theorem offset?_sign (written : WrittenOffset) (body : List Char) :
    offset? (written.sign :: body) = (offsetBody? body).bind fun (seconds : Nat) =>
      fixed? (if written.negative then -(seconds : Int) else seconds) := by
  rw [WrittenOffset.sign]
  cases written.negative <;> rfl

/-- What is read behind a sign has the digits of an offset with this sign and paired
hours. -/
theorem exists_of_offsetBody? {negative : Bool} {body : List Char} {zone : Zone}
    (read : (offsetBody? body).bind (fun (seconds : Nat) =>
      fixed? (if negative then -(seconds : Int) else seconds)) = some zone) :
    ∃ written : WrittenOffset, written.sign = (if negative then '-' else '+') ∧
      written.IsPaired ∧ fixed? written.east = some zone ∧
        body.filter (· ≠ ':') = written.digits := by
  obtain ⟨seconds, known, denoted⟩ := Option.bind_eq_some_iff.mp read
  rw [offsetBody?] at known
  split at known
  · rename_i numeral
    obtain ⟨written, rfl, paired, digits⟩ :=
      WrittenOffset.exists_of_offsetSeconds? numeral known negative
    rw [← digits, WrittenOffset.offsetSeconds?_digits paired] at known
    cases known
    exact ⟨written, rfl, paired, denoted, digits.symm⟩
  · cases known

/-- A zone is read from an offset exactly when the text has the sign and the digits of an
offset with paired hours that denotes this zone, wherever colons stand in it. -/
theorem offset?_eq_some_iff {text : List Char} {zone : Zone} :
    offset? text = some zone ↔ ∃ (written : WrittenOffset) (body : List Char), written.IsPaired ∧
      fixed? written.east = some zone ∧ text = written.sign :: body ∧
        body.filter (· ≠ ':') = written.digits := by
  constructor
  · intro read
    unfold offset? at read
    split at read
    · rename_i body
      obtain ⟨written, sign, paired, denoted, digits⟩ := @exists_of_offsetBody? false body zone read
      exact ⟨written, body, paired, denoted, congrArg (· :: body) sign.symm, digits⟩
    · rename_i body
      obtain ⟨written, sign, paired, denoted, digits⟩ := @exists_of_offsetBody? true body zone read
      exact ⟨written, body, paired, denoted, congrArg (· :: body) sign.symm, digits⟩
    · cases read
  · rintro ⟨written, body, paired, denoted, rfl, digits⟩
    rw [offset?_sign, offsetBody?, digits, if_pos written.isNumeral_digits,
      WrittenOffset.offsetSeconds?_digits paired]
    exact denoted

/-- An offset with hours of one digit and minutes behind them denotes a zone, and is not
read. The reader drops colons and goes by the number of digits, which is three or five here. -/
theorem offset?_of_shortHours {text : List Char} (short : HasShortHours text) :
    offset? text = none ∧ ∃ zone : Zone, zone.SpelledBy text := by
  obtain ⟨written, rfl, unpaired⟩ := short
  obtain ⟨notTwo, filled⟩ := not_or.mp unpaired
  have one := written.length_hours.resolve_right notTwo
  constructor
  · rw [Option.eq_none_iff_forall_ne_some]
    intro zone read
    -- One digit and some pairs are odd in number, and paired hours allow that for one digit only.
    obtain ⟨other, body, paired, -, same, digits⟩ := offset?_eq_some_iff.mp read
    obtain ⟨-, rfl⟩ := List.cons.inj same
    have counted := congrArg List.length (written.filter_body.symm.trans digits)
    rw [WrittenOffset.length_digits, WrittenOffset.length_digits, one] at counted
    have some := List.length_pos_iff.mpr filled
    rcases paired with two | none
    · omega
    · rw [none, List.length_nil] at counted
      have width := other.width
      omega
  · exact ⟨_, written, rfl, dif_pos (WrittenOffset.natAbs_east_lt one)⟩

/-- A text with a stray colon is read, and it is no offset of the grammar. -/
theorem offset?_of_strayColon {text : List Char} (stray : HasStrayColon text) :
    (∃ zone, offset? text = some zone) ∧ ∀ zone : Zone, ¬ zone.SpelledBy text := by
  obtain ⟨written, body, paired, below, rfl, digits, colon, untidy⟩ := stray
  constructor
  · exact ⟨_, offset?_eq_some_iff.mpr ⟨written, body, paired, dif_pos below, rfl, digits⟩⟩
  · rintro zone ⟨other, spelled, -⟩
    obtain ⟨-, rfl⟩ := List.cons.inj spelled
    have same := other.filter_body.symm.trans digits
    exact untidy (WrittenOffset.splitsPairs_of_digits paired same colon)

/-- A bare offset is read as the grammar says, except when its hours have one digit and
minutes behind them, or when a colon stands elsewhere than between pairs of digits.

Proof: either exception is a text on which the reader and the grammar differ, the one
refused by the reader and the other taken by it alone. Without them, a text that is read has
the digits of an offset with paired hours and its colons between pairs, so it is such an
offset. Conversely an offset of the grammar has paired hours, and the reader takes those. -/
theorem offset?_follows_grammar_iff (text : List Char) :
    (∀ zone : Zone, offset? text = some zone ↔ zone.SpelledBy text) ↔
      ¬ HasShortHours text ∧ ¬ HasStrayColon text := by
  constructor
  · intro follows
    constructor
    · intro short
      obtain ⟨refused, zone, spelled⟩ := offset?_of_shortHours short
      have read := (follows zone).mpr spelled
      rw [refused] at read
      cases read
    · intro stray
      obtain ⟨⟨zone, read⟩, none⟩ := offset?_of_strayColon stray
      exact none zone ((follows zone).mp read)
  · rintro ⟨long, tidy⟩ zone
    constructor
    · intro read
      obtain ⟨written, body, paired, denoted, rfl, digits⟩ := offset?_eq_some_iff.mp read
      have splits : ':' ∈ body → SplitsPairs body := by
        intro colon
        by_contra untidy
        refine tidy ⟨written, body, paired, ?_, rfl, digits, colon, untidy⟩
        by_contra beyond
        rw [fixed?, dif_neg beyond] at denoted
        cases denoted
      obtain ⟨other, rfl, sign, east⟩ := WrittenOffset.exists_of_filter paired digits splits
      exact ⟨other, congrArg (· :: other.body) sign, east ▸ denoted⟩
    · rintro ⟨written, rfl, denoted⟩
      by_cases paired : written.IsPaired
      · exact offset?_eq_some_iff.mpr
          ⟨written, written.body, paired, denoted, rfl, written.filter_body⟩
      · exact absurd ⟨written, rfl, paired⟩ long

/-- An offset of five and a half hours is refused when its hours have one digit, and a colon
between the digits of the hours is no reason to refuse an offset of twelve. -/
theorem offset?_misses_grammar :
    (offset? "+5:30".toList = none ∧ (fixed 19800 (by decide)).SpelledBy "+5:30".toList) ∧
      offset? "+1:2".toList = some (fixed 43200 (by decide)) ∧
      ∀ zone : Zone, ¬ zone.SpelledBy "+1:2".toList := by
  refine ⟨⟨by decide +kernel, ?_⟩, by decide +kernel, (offset?_of_strayColon ?_).2⟩
  · let half : OffsetPart := ⟨true, '3', '0', by simp, by decide⟩
    exact ⟨⟨false, ['5'], [half], rfl, by decide, Nat.le_succ 1⟩, by decide +kernel,
      by decide +kernel⟩
  · exact ⟨⟨false, ['1', '2'], [], rfl, by decide, by decide⟩, "1:2".toList, .inl rfl, by decide,
      rfl, rfl, by decide, by decide⟩

end Zone

end EventSieve.Time
