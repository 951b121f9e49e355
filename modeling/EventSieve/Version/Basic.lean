import EventSieve.Number.Notation
import EventSieve.Json.Document
import EventSieve.Text.Blank
import EventSieve.Version.Semantic

/-!
# Version values

A version is its trimmed text together with the semantic version that the text
can be read as, if any. Reading is lenient: one leading `v` is dropped, missing
minor and patch numbers are zero, and numbers may have leading zeros.

Versions with a semantic form are ordered by it and come before all others. Equal
semantic forms, and two texts without one, are ordered as texts, so two
spellings of one semantic version are different versions.
-/

namespace EventSieve

namespace Version

/-- A version text without one leading letter v. -/
def withoutLetter : List Char → List Char
  | 'v' :: rest => rest
  | 'V' :: rest => rest
  | body => body

/-- Reads a number that fits a word of 64 bits, with any leading zeros. -/
def coreNumber? (part : List Char) : Option Nat :=
  Number.word64? part

/-- Reads one to three numbers between points; missing numbers are zero. -/
def core? (core : List Char) : Option (Nat × Nat × Nat) :=
  match (Text.pieces '.' core).mapM coreNumber? with
  | some [major] => some (major, 0, 0)
  | some [major, minor] => some (major, minor, 0)
  | some [major, minor, patch] => some (major, minor, patch)
  | _ => none

/-- The semantic version that a trimmed text is leniently read as. -/
def semantic? (trimmed : List Char) : Option Semantic :=
  let (core, rest) := Semantic.splitCore (withoutLetter trimmed)
  match core? core, Semantic.suffix? rest with
  | some (major, minor, patch), some (pre, build) => some ⟨major, minor, patch, pre, build⟩
  | _, _ => none

end Version

/-- A version text with its semantic form. The text has no blanks around it, and
the semantic form is what the text is read as, so a version is determined by its
text. -/
structure Version where
  text : String
  semantic : Option Version.Semantic
  trimmed : Text.trimChars text.toList = text.toList
  read : semantic = Version.semantic? text.toList
deriving DecidableEq, Repr

namespace Version

/-- Versions with the same text are equal. -/
theorem ext_text {left right : Version} (same : left.text = right.text) : left = right := by
  obtain ⟨text, semantic, trimmed, read⟩ := left
  obtain ⟨otherText, otherSemantic, otherTrimmed, otherRead⟩ := right
  subst same
  subst read
  subst otherRead
  rfl

/-- The version that a text denotes. -/
def ofText (text : String) : Version where
  text := Text.trim text
  semantic := semantic? (Text.trimChars text.toList)
  trimmed := by simp only [Text.trim, String.toList_ofList, Text.trimChars_trimChars]
  read := by simp only [Text.trim, String.toList_ofList]

/-- The text of a version is trimmed. -/
theorem text_ofText (text : String) : (ofText text).text = Text.trim text := rfl

/-- The order of versions. -/
def order (left right : Version) : Ordering :=
  match left.semantic, right.semantic with
  | some first, some second => (first.order second).then (compare left.text right.text)
  | some _, none => .lt
  | none, some _ => .gt
  | none, none => compare left.text right.text

/-- The version that a JSON document spells: a text, or a number in its plain form. -/
def ofDocument? : Json.Document → Option Version
  | .text content => content.map ofText
  | .number spelling =>
    match spelling.value? with
    | some (.integer value) => some (ofText (Number.integerText value))
    | some (.float value) => some (ofText (Number.floatText Number.plainStyle value))
    | none => none
  | _ => none

/-- The version that a whole JSON text spells. -/
def ofJsonText? (text : String) : Option Version :=
  match Json.Source.ofText text with
  | ⟨some root, true⟩ => ofDocument? root
  | _ => none

example : (ofText " v2.01 ").semantic = some ⟨2, 1, 0, [], []⟩ := by decide +kernel

example : (ofText "1.2.3.4").semantic = none := by decide +kernel

example : (ofText "1.0").order (ofText "1.0.0") = .lt := by decide +kernel

example : (ofText "nightly").order (ofText "9.0-rc") = .gt := by decide +kernel

end Version

end EventSieve
