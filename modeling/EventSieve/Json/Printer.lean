import EventSieve.Json.Value
import EventSieve.Number.Notation

/-!
# JSON text of a value

The compact form has no blanks. The indented form puts every item of a list and
every member of an object on a line of its own, two spaces deeper than its
container, and writes empty containers without a line break. Both escape only
what JSON requires: the quote, the backslash and the control characters below a
space. A value is written behind the text that stands before it, so a long list
is written in one pass.
-/

namespace EventSieve.Json

/-- The hexadecimal digit of a number below sixteen, in lower case. -/
def hexDigit (value : Nat) : Char :=
  Nat.digitChar (value % 16)

/-- A character as it stands inside a JSON string. -/
def escapeChar (character : Char) : List Char :=
  if character = '"' then ['\\', '"']
  else if character = '\\' then ['\\', '\\']
  else if character = '\n' then ['\\', 'n']
  else if character = '\t' then ['\\', 't']
  else if character = '\r' then ['\\', 'r']
  else if character = '\x08' then ['\\', 'b']
  else if character = '\x0c' then ['\\', 'f']
  else if character.toNat < 32 then
    ['\\', 'u', '0', '0', hexDigit (character.toNat / 16), hexDigit character.toNat]
  else [character]

/-- A text between quotes with its special characters escaped. -/
def quoted (text : String) : String :=
  String.ofList ('"' :: (text.toList.flatMap escapeChar ++ ['"']))

/-- The text of a number. -/
def numberText : Number → String
  | .integer value => EventSieve.Number.integerText value
  | .float value => EventSieve.Number.floatText EventSieve.Number.documentStyle value

mutual

/-- A text with the compact text of a value behind it. -/
def compactAfter (front : String) : Json → String
  | .null => front ++ "null"
  | .boolean value => front ++ (if value then "true" else "false")
  | .number value => front ++ numberText value
  | .text value => front ++ quoted value
  | .list items => compactItemsAfter (front ++ "[") items ++ "]"
  | .object members => compactMembersAfter (front ++ "\x7b") members ++ "\x7d"

/-- A text with the compact texts of items behind it, with commas between them. -/
def compactItemsAfter (front : String) : List Json → String
  | [] => front
  | [item] => compactAfter front item
  | item :: next :: rest => compactItemsAfter (compactAfter front item ++ ",") (next :: rest)

/-- A text with the compact texts of members behind it, with commas between them. -/
def compactMembersAfter (front : String) : List (String × Json) → String
  | [] => front
  | [(key, value)] => compactAfter (front ++ quoted key ++ ":") value
  | (key, value) :: next :: rest =>
    compactMembersAfter (compactAfter (front ++ quoted key ++ ":") value ++ ",") (next :: rest)

end

/-- The compact text of a value. -/
def compact (value : Json) : String :=
  compactAfter "" value

/-- A line break followed by the indentation of a depth. -/
def newLine (depth : Nat) : String :=
  String.ofList ('\n' :: List.replicate (2 * depth) ' ')

mutual

/-- A text with the indented text of a value behind it, which stands at a depth. -/
def indentedAfter (front : String) (depth : Nat) : Json → String
  | .null => front ++ "null"
  | .boolean value => front ++ (if value then "true" else "false")
  | .number value => front ++ numberText value
  | .text value => front ++ quoted value
  | .list [] => front ++ "[]"
  | .list (item :: rest) =>
    indentedItemsAfter (front ++ "[") (depth + 1) (item :: rest) ++ newLine depth ++ "]"
  | .object [] => front ++ "\x7b\x7d"
  | .object (member :: rest) =>
    indentedMembersAfter (front ++ "\x7b") (depth + 1) (member :: rest) ++ newLine depth ++ "\x7d"

/-- A text with the lines of items behind it, each after its line break. -/
def indentedItemsAfter (front : String) (depth : Nat) : List Json → String
  | [] => front
  | [item] => indentedAfter (front ++ newLine depth) depth item
  | item :: next :: rest =>
    indentedItemsAfter (indentedAfter (front ++ newLine depth) depth item ++ ",") depth (next :: rest)

/-- A text with the lines of members behind it, each after its line break. -/
def indentedMembersAfter (front : String) (depth : Nat) : List (String × Json) → String
  | [] => front
  | [(key, value)] => indentedAfter (front ++ newLine depth ++ quoted key ++ ": ") depth value
  | (key, value) :: next :: rest =>
    indentedMembersAfter
      (indentedAfter (front ++ newLine depth ++ quoted key ++ ": ") depth value ++ ",") depth
      (next :: rest)

end

/-- The indented text of a value. -/
def indented (value : Json) : String :=
  indentedAfter "" 0 value

mutual

/-- What a value is written behind does not change how it is written. -/
theorem compactAfter_append (front back : String) (value : Json) :
    compactAfter (front ++ back) value = front ++ compactAfter back value := by
  cases value with
  | null => simp only [compactAfter, String.append_assoc]
  | boolean value => simp only [compactAfter, String.append_assoc]
  | number value => simp only [compactAfter, String.append_assoc]
  | text value => simp only [compactAfter, String.append_assoc]
  | list items =>
    simp only [compactAfter, String.append_assoc, compactItemsAfter_append front _ items]
  | object members =>
    simp only [compactAfter, String.append_assoc, compactMembersAfter_append front _ members]

/-- The same holds of the items of a list. -/
theorem compactItemsAfter_append (front back : String) (items : List Json) :
    compactItemsAfter (front ++ back) items = front ++ compactItemsAfter back items := by
  match items with
  | [] => rfl
  | [item] => exact compactAfter_append front back item
  | item :: next :: rest =>
    simp only [compactItemsAfter, compactAfter_append front back item, String.append_assoc,
      compactItemsAfter_append front _ (next :: rest)]

/-- The same holds of the members of an object. -/
theorem compactMembersAfter_append (front back : String) (members : List (String × Json)) :
    compactMembersAfter (front ++ back) members = front ++ compactMembersAfter back members := by
  match members with
  | [] => rfl
  | [(key, value)] =>
    simp only [compactMembersAfter, String.append_assoc, compactAfter_append front _ value]
  | (key, value) :: next :: rest =>
    simp only [compactMembersAfter, String.append_assoc, compactAfter_append front _ value,
      compactMembersAfter_append front _ (next :: rest)]

end

/-- Writing behind a text puts the compact text of the value there. -/
theorem compactAfter_eq (front : String) (value : Json) :
    compactAfter front value = front ++ value.compact := by
  have appended := compactAfter_append front "" value
  rwa [String.append_empty] at appended

example : compact (.object [("a", .list [ofInt 1, .null]), ("b", .text "\n")]) =
    "\x7b\"a\":[1,null],\"b\":\"\\n\"\x7d" := by decide +kernel

example : indented (.list [.boolean true, .list []]) = "[\n  true,\n  []\n]" := by decide +kernel

end EventSieve.Json
