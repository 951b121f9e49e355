import EventSieve.Json.NumberSpelling

/-!
# Tokens of JSON text

Scanning turns a text into tokens from left to right. A place where no token can
stand ends the scan with the token `broken`, so the tokens before a fault are
those of any text that begins alike. Only the four blanks of JSON separate
tokens.

A string token keeps its content when every surrogate escape is paired, and is
marked otherwise, because a reader that skips a string does not need its
content. In the same way a number token keeps its spelling: whether a number is
in range is asked only of numbers that are used.
-/

namespace EventSieve.Json

/-- The pieces of JSON text. -/
inductive Token where
  | openList
  | closeList
  | openObject
  | closeObject
  | comma
  | colon
  | null
  | boolean (value : Bool)
  | number (spelling : NumberSpelling)
  | text (content : Option String)
  | broken
deriving DecidableEq, Repr

/-- The blanks of JSON text. -/
def isSpace (character : Char) : Bool :=
  character = ' ' || character = '\n' || character = '\t' || character = '\r'

/-- The value of a hexadecimal digit. -/
def hexValue? (character : Char) : Option Nat :=
  if character.isDigit then some (character.toNat - '0'.toNat)
  else if 'a' ≤ character ∧ character ≤ 'f' then some (character.toNat - 'a'.toNat + 10)
  else if 'A' ≤ character ∧ character ≤ 'F' then some (character.toNat - 'A'.toNat + 10)
  else none

/-- The number that four hexadecimal digits denote. -/
def hexUnit? (first second third fourth : Char) : Option Nat := do
  let first ← hexValue? first
  let second ← hexValue? second
  let third ← hexValue? third
  let fourth ← hexValue? fourth
  return ((first * 16 + second) * 16 + third) * 16 + fourth

/-- The character that a letter after a backslash stands for. -/
def simpleEscape? (character : Char) : Option Char :=
  match character with
  | '"' => some '"'
  | '\\' => some '\\'
  | '/' => some '/'
  | 'b' => some '\x08'
  | 'f' => some '\x0c'
  | 'n' => some '\n'
  | 'r' => some '\r'
  | 't' => some '\t'
  | _ => none

/-- Whether a code unit is the first half of a surrogate pair. -/
def isLeading (unit : Nat) : Bool :=
  0xD800 ≤ unit && unit < 0xDC00

/-- Whether a code unit is the second half of a surrogate pair. -/
def isTrailing (unit : Nat) : Bool :=
  0xDC00 ≤ unit && unit < 0xE000

/-- The character that a surrogate pair denotes. -/
def pairedChar (leading trailing : Nat) : Char :=
  Char.ofNat (0x10000 + (leading - 0xD800) * 0x400 + (trailing - 0xDC00))

/-- The characters that a row of code units denotes: a leading surrogate goes
together with the trailing one behind it, and no surrogate stands alone. -/
def pairUnits : List Nat → Option (List Char)
  | [] => some []
  | [unit] =>
    if isLeading unit || isTrailing unit then none else some [Char.ofNat unit]
  | unit :: next :: rest =>
    if isLeading unit then
      if isTrailing next then (pairUnits rest).map (pairedChar unit next :: ·) else none
    else if isTrailing unit then none
    else (pairUnits (next :: rest)).map (Char.ofNat unit :: ·)

/-- The code units of a string up to its closing quote, after those read so far,
which stand in reverse, and the text behind the quote. No result means that the
string is not well formed. -/
def scanString : List Nat → List Char → Option (List Nat × List Char)
  | units, '"' :: rest => some (units.reverse, rest)
  | units, '\\' :: 'u' :: first :: second :: third :: fourth :: rest =>
    match hexUnit? first second third fourth with
    | some unit => scanString (unit :: units) rest
    | none => none
  | units, '\\' :: character :: rest =>
    match simpleEscape? character with
    | some meant => scanString (meant.toNat :: units) rest
    | none => none
  | units, character :: rest =>
    if character.toNat < 32 then none else scanString (character.toNat :: units) rest
  | _, [] => none

/-- An exponent that has reached this limit takes no further digits. No text has so
many digits that they could bring such a number back into range. -/
def exponentLimit : Nat := 2147483648

/-- The digits of an exponent after its mark, and the text after them. -/
def scanExponent (text : List Char) : Option (Int × List Char) :=
  let (negative, body) := EventSieve.Number.splitSign text
  let digits := body.takeWhile Char.isDigit
  if digits.isEmpty then none
  else some (EventSieve.Number.Binary64.signed negative (Text.extendUntil exponentLimit 0 digits),
    body.dropWhile Char.isDigit)

/-- A number and the text after it. A number is plain when it has neither a
fraction nor an exponent. -/
def scanNumber (text : List Char) : Option (Token × List Char) :=
  let negative := text.head? == some '-'
  let body := if negative then text.drop 1 else text
  let whole := body.takeWhile Char.isDigit
  let afterWhole := body.dropWhile Char.isDigit
  if whole.isEmpty || (whole.head? == some '0' && 1 < whole.length) then none
  else
    let hasFraction := afterWhole.head? == some '.'
    let fraction := if hasFraction then (afterWhole.drop 1).takeWhile Char.isDigit else []
    let afterFraction :=
      if hasFraction then (afterWhole.drop 1).dropWhile Char.isDigit else afterWhole
    if hasFraction && fraction.isEmpty then none
    else match afterFraction with
      | mark :: rest =>
        if mark = 'e' ∨ mark = 'E' then
          (scanExponent rest).map fun (exponent, after) =>
            (.number ⟨negative, whole, fraction, exponent, false⟩, after)
        else some (.number ⟨negative, whole, fraction, 0, !hasFraction⟩, afterFraction)
      | [] => some (.number ⟨negative, whole, fraction, 0, !hasFraction⟩, [])

/-- The first token of a text and the text after it. Blanks have been passed over. -/
def scanToken : List Char → Option (Token × List Char)
  | '[' :: rest => some (.openList, rest)
  | ']' :: rest => some (.closeList, rest)
  | '\x7b' :: rest => some (.openObject, rest)
  | '\x7d' :: rest => some (.closeObject, rest)
  | ',' :: rest => some (.comma, rest)
  | ':' :: rest => some (.colon, rest)
  | 'n' :: 'u' :: 'l' :: 'l' :: rest => some (.null, rest)
  | 't' :: 'r' :: 'u' :: 'e' :: rest => some (.boolean true, rest)
  | 'f' :: 'a' :: 'l' :: 's' :: 'e' :: rest => some (.boolean false, rest)
  | '"' :: rest => (scanString [] rest).map fun (units, after) =>
    (.text ((pairUnits units).map String.ofList), after)
  | characters => scanNumber characters

/-- The tokens of a text after those found so far, which stand in reverse. Every
token takes at least one character, so the length of the text is fuel enough. -/
def scan : Nat → List Token → List Char → List Token
  | fuel, found, characters =>
    match characters.dropWhile isSpace with
    | [] => found.reverse
    | body =>
      match fuel, scanToken body with
      | fuel + 1, some (token, rest) => scan fuel (token :: found) rest
      | _, _ => (.broken :: found).reverse

/-- The tokens of a text, ending with `broken` at the first place where no token can stand. -/
def tokens (text : String) : List Token :=
  let characters := text.toList
  scan characters.length [] characters

example : tokens "[1, tru" =
    [.openList, .number ⟨false, ['1'], [], 0, true⟩, .comma, .broken] := by decide +kernel

example : tokens "\"\\ud83d\\ude00\" \"\\ud83d\"" = [.text (some "😀"), .text none] := by
  decide +kernel

end EventSieve.Json
