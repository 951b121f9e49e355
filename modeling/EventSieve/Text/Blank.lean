import EventSieve.Text.Ascii

/-!
# Blank characters and trimming

A character is blank when it carries the Unicode property White_Space. Every
reader of the library that allows blanks around or inside a text uses this one
class, so a no-break space is skipped wherever an ordinary space is. Trimming
removes blanks at both ends only; blanks between other characters stay.

Texts are handled as lists of characters here. The functions on strings are the
same functions after `String.toList`.
-/

namespace EventSieve.Text

/-- The closed intervals of code points that have the property White_Space. -/
def blankRanges : List (Nat × Nat) :=
  [(0x09, 0x0D), (0x20, 0x20), (0x85, 0x85), (0xA0, 0xA0), (0x1680, 0x1680),
    (0x2000, 0x200A), (0x2028, 0x2029), (0x202F, 0x202F), (0x205F, 0x205F), (0x3000, 0x3000)]

/-- A character is blank when its code point lies in one of the blank ranges. -/
def isBlank (character : Char) : Bool :=
  blankRanges.any fun range =>
    range.1 ≤ character.toNat && character.toNat ≤ range.2

/-- Drops the blanks in front of a text. -/
def trimFront (text : List Char) : List Char :=
  text.dropWhile isBlank

/-- Drops the blanks behind a text. -/
def trimBack (text : List Char) : List Char :=
  (trimFront text.reverse).reverse

/-- Drops the blanks at both ends of a text. -/
def trimChars (text : List Char) : List Char :=
  trimBack (trimFront text)

/-- Drops the blanks at both ends of a string. -/
def trim (text : String) : String :=
  String.ofList (trimChars text.toList)

/-- Core's white space is blank; the converse fails, as for the no-break space. -/
theorem isBlank_of_isWhitespace (character : Char) (white : character.isWhitespace = true) :
    isBlank character = true := by
  simp only [Char.isWhitespace, Bool.or_eq_true, decide_eq_true_eq] at white
  rcases white with ((rfl | rfl) | rfl) | rfl <;> decide

/-- Nothing is left to drop once the front has been trimmed. -/
theorem trimFront_trimFront (text : List Char) : trimFront (trimFront text) = trimFront text := by
  induction text with
  | nil => rfl
  | cons character rest inductionHypothesis =>
    by_cases blank : isBlank character = true
    · simpa [trimFront, blank] using inductionHypothesis
    · simp [trimFront, blank]

/-- A text whose front has nothing to trim starts with no blank. -/
theorem isBlank_first {first : Char} {rest : List Char}
    (fixed : trimFront (first :: rest) = first :: rest) : isBlank first = false := by
  apply Bool.eq_false_iff.mpr
  intro blank
  have shorter : (trimFront (first :: rest)).length ≤ rest.length := by
    rw [trimFront, List.dropWhile_cons_of_pos blank]
    exact (List.dropWhile_sublist _).length_le
  rw [fixed] at shorter
  exact Nat.not_succ_le_self _ shorter

/-- Dropping blanks behind a text that starts with no blank brings none to its front. -/
theorem trimFront_trimBack {text : List Char} (fixed : trimFront text = text) :
    trimFront (trimBack text) = trimBack text := by
  cases text with
  | nil => rfl
  | cons first rest =>
    have solid := isBlank_first fixed
    have kept : trimBack (first :: rest) = first :: trimBack rest := by
      have last : [first].dropWhile isBlank = [first] := by simp [solid]
      simp only [trimBack, trimFront, List.reverse_cons, List.dropWhile_append, last]
      split
      · rename_i gone
        simp [List.isEmpty_iff.mp gone]
      · simp
    rw [kept, trimFront, List.dropWhile_cons_of_neg (by simp [solid])]

/-- A trimmed text has nothing left to trim. -/
theorem trimChars_trimChars (text : List Char) : trimChars (trimChars text) = trimChars text := by
  have front : trimFront (trimChars text) = trimChars text :=
    trimFront_trimBack (trimFront_trimFront text)
  rw [trimChars, front, trimChars, trimBack, trimBack, List.reverse_reverse, trimFront_trimFront]

/-- A text without blanks has nothing to trim. -/
theorem trimChars_of_solid {text : List Char}
    (solid : ∀ character ∈ text, isBlank character = false) : trimChars text = text := by
  have front (other : List Char) (same : ∀ character ∈ other, isBlank character = false) :
      trimFront other = other := by
    cases other with
    | nil => rfl
    | cons first rest =>
      have own := same first List.mem_cons_self
      exact List.dropWhile_cons_of_neg (Bool.eq_false_iff.mp own)
  have back : ∀ character ∈ text.reverse, isBlank character = false := by
    intro character member
    exact solid character (List.mem_reverse.mp member)
  rw [trimChars, front text solid, trimBack, front text.reverse back, List.reverse_reverse]

/-- Blanks around a text that has nothing to trim are all that is trimmed. Such a text
begins and ends with something that is no blank, or it is empty. -/
theorem trimChars_surrounded {front text back : List Char}
    (blankFront : ∀ character ∈ front, isBlank character = true)
    (blankBack : ∀ character ∈ back, isBlank character = true)
    (trimmed : trimChars text = text) : trimChars (front ++ text ++ back) = text := by
  have fixed : trimFront text = text := by
    have front : trimFront (trimChars text) = trimChars text :=
      trimFront_trimBack (trimFront_trimFront text)
    rwa [trimmed] at front
  have ended : trimBack text = text := by rwa [trimChars, fixed] at trimmed
  have behind : trimBack (text ++ back) = text := by
    have reversed : ∀ character ∈ back.reverse, isBlank character = true :=
      fun character member => blankBack character (List.mem_reverse.mp member)
    rw [trimBack, List.reverse_append, trimFront, List.dropWhile_append_of_pos reversed]
    exact ended
  rw [trimChars, List.append_assoc, trimFront, List.dropWhile_append_of_pos blankFront]
  cases text with
  | nil =>
    rw [List.nil_append, ← List.append_nil back, List.dropWhile_append_of_pos blankBack]
    rfl
  | cons first rest =>
    rw [List.cons_append, List.dropWhile_cons_of_neg (by simp [isBlank_first fixed]),
      ← List.cons_append]
    exact behind

/-- A digit is not blank. -/
theorem isBlank_of_isDigit {character : Char} (digit : character.isDigit = true) :
    isBlank character = false := by
  have bounds := toNat_of_isDigit digit
  simp only [isBlank, blankRanges, List.any_cons, List.any_nil, Bool.or_false, Bool.or_eq_false_iff,
    Bool.and_eq_false_iff, decide_eq_false_iff_not]
  omega

example : trimChars [' ', 'a', ' ', 'b', '\u3000'] = ['a', ' ', 'b'] := by decide

example : (blankRanges.map fun range => range.2 + 1 - range.1).sum = 25 := by decide

end EventSieve.Text
