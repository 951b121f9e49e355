import EventSieve.Json.Shape
import EventSieve.Table.Basic

/-!
# Table documents

A table document is a JSON object with the name of the table, its columns, a
column map and a text that joins composed fields; the last two may be left out.
An entry of the column map is null, a reference to a column, a list of
references, or an object of references. A reference is the name of a column or
its position.

A table is built from a document in a fixed order: the types of all columns are
read, then the entries of the column map are resolved in the order of the
document, then the parts are checked against each other. Keys that mean nothing
at the top of a document are kept, so that they can be reported.
-/

namespace EventSieve

open Json (Document)

/-- A column as a document gives it, with the tag of its type. -/
structure ColumnEntry where
  name : String
  tag : String
  description : Option String
deriving DecidableEq, Repr

/-- The parts of a table as a document gives them. -/
structure TableDocument where
  name : String
  columns : List ColumnEntry
  columnMap : Json.Members
  concatenator : Option String
  /-- The keys that mean nothing, each once, in their order. -/
  unknownKeys : List String
deriving Repr

namespace ColumnEntry

/-- The parts of a column in a document. -/
inductive Part where
  | name
  | type
  | description
deriving DecidableEq, Repr

/-- The part of a column that a key names. -/
def Part.named? (key : String) : Option Part :=
  if key = "name" then some .name
  else if key = "type" then some .type
  else if key = "description" then some .description
  else none

/-- The parts of a column that have been read. -/
structure Draft where
  name : Option String
  tag : Option String
  description : Option String

/-- The text that a document spells. -/
def textOf : Document → Except Unit String
  | .text (some content) => .ok content
  | _ => .error ()

/-- Reads one part of a column. -/
def visit (_depth : Nat) (draft : Draft) (part : Part) (document : Document) : Except Unit Draft :=
  match part with
  | .name => do return { draft with name := some (← textOf document) }
  | .type => do return { draft with tag := some (← textOf document) }
  | .description =>
    match document with
    | .null => .ok draft
    | other => do return { draft with description := some (← textOf other) }

/-- How a column is read: unknown keys are passed over, and the list form gives
all parts. -/
def reader : Json.FieldReader Part Draft Unit where
  fields := [.name, .type, .description]
  named := Part.named?
  skipsUnknown := true
  wholeList := true
  malformed := ()
  visit := visit

/-- The column that a document spells below a limit of depth; its name and its
type have to be there. -/
def ofDocument? (depth : Nat) (document : Document) : Option ColumnEntry :=
  match reader.read depth ⟨none, none, none⟩ document with
  | .ok ⟨some name, some tag, description⟩ => some ⟨name, tag, description⟩
  | _ => none

/-- The column with its type. -/
def toColumn (entry : ColumnEntry) : Except TableError Column :=
  match ColumnType.ofTag? entry.tag with
  | some type => .ok ⟨entry.name, type, entry.description⟩
  | none => .error (.unknownType entry.tag)

end ColumnEntry

namespace TableDocument

/-- The members of a document at the top of a text, with keys that are texts. -/
def topMembers? : Document → Option (List (String × Document))
  | .object members true => members.mapM fun (key, value) => key.map fun key => (key, value)
  | _ => none

/-- The value of a key that may stand once. The outer result is missing when the
key stands more than once. -/
def single? (key : String) (members : List (String × Document)) : Option (Option Document) :=
  match members.filter fun member => member.1 = key with
  | [] => some none
  | [(_, value)] => some (some value)
  | _ => none

/-- The keys that mean something at the top of a document. -/
def knownKeys : List String := ["table", "columns", "column_map", "concatenator"]

/-- The columns that a document spells below a limit of depth. -/
def columnsOf? (depth : Nat) : Document → Option (List ColumnEntry)
  | .list items true =>
    if 1 < depth then items.mapM (ColumnEntry.ofDocument? (depth - 1)) else none
  | _ => none

/-- The column map that a document spells; without one it is empty. -/
def columnMapOf? (depth : Nat) : Option Document → Option Json.Members
  | none => some []
  | some document =>
    match document.value? depth with
    | some (.object members) => some members
    | _ => none

/-- The text that joins composed fields, which null leaves out. -/
def concatenatorOf? : Option Document → Option (Option String)
  | none => some none
  | some .null => some none
  | some (.text (some content)) => some (some content)
  | some _ => none

/-- The members that mean nothing at the top of a document, each key once; they
need values all the same. -/
def unknownMembers? (depth : Nat) (members : List (String × Document)) : Option Json.Members := do
  let unknown := members.filter fun member => !knownKeys.contains member.1
  return Json.ofPairs (← unknown.mapM fun member => do
    return (member.1, ← member.2.value? depth))

/-- The parts of a table that a document spells. -/
def ofDocument? (document : Document) : Option TableDocument := do
  let depth := Json.depthLimit - 1
  let members ← topMembers? document
  let some (.text (some name)) ← single? "table" members | none
  let some columns ← single? "columns" members | none
  let columns ← columnsOf? depth columns
  let columnMap ← columnMapOf? depth (← single? "column_map" members)
  let concatenator ← concatenatorOf? (← single? "concatenator" members)
  let unknown ← unknownMembers? depth members
  return ⟨name, columns, columnMap, concatenator, unknown.map (·.1)⟩

/-- The parts of a table that a JSON text spells. -/
def ofText? (text : String) : Option TableDocument :=
  match Json.Source.ofText text with
  | ⟨some root, true⟩ => ofDocument? root
  | _ => none

/-- A column named in a column map or given by its position. -/
inductive Reference where
  | index (position : Nat)
  | name (column : String)
deriving DecidableEq, Repr

/-- The reference that a value of a column map gives. -/
def Reference.ofJson? : Json → Option Reference
  | .number (.integer value) => if 0 ≤ value then some (.index value.toNat) else none
  | .text column => some (.name column)
  | _ => none

/-- The position that a reference stands for. A position is taken as it is; it is
checked with the whole table. -/
def Reference.resolve (table field : String) (columns : List Column) :
    Reference → Except TableError Nat
  | .index position => .ok position
  | .name column =>
    match Table.positionIn? columns column with
    | some position => .ok position
    | none => .error (.unknownColumn table field column)

/-- The locator that an entry of the column map gives. -/
def locatorOf (table field : String) (columns : List Column) (entry : Json) :
    Except TableError Locator :=
  match entry with
  | .null => .ok .absent
  | .list items =>
    match items.mapM Reference.ofJson? with
    | some references => do
      return .list (← references.mapM (Reference.resolve table field columns))
    | none => .error (.invalidLocator field .unsupportedEntry)
  | .object members => do
    return .dict (← members.mapM fun (key, value) =>
      match Reference.ofJson? value with
      | some reference => do return (key, ← reference.resolve table field columns)
      | none => .error (.invalidLocator field (.unsupportedReference key)))
  | other =>
    match Reference.ofJson? other with
    | some reference => do return .single (← reference.resolve table field columns)
    | none => .error (.invalidLocator field .unsupportedEntry)

/-- The table that a document describes. -/
def toTable (document : TableDocument) : Except TableError Table := do
  let columns ← document.columns.mapM ColumnEntry.toColumn
  let entries ← document.columnMap.mapM fun (field, entry) => do
    return (field, ← locatorOf document.name field columns entry)
  Table.make document.name columns (Mapping.ofList entries)
    (document.concatenator.getD Table.defaultConcatenator)

end TableDocument

namespace Table

/-- The table that a JSON text describes. -/
def ofText (text : String) : Except TableError Table :=
  match TableDocument.ofText? text with
  | some document => document.toTable
  | none => .error .unreadableDocument

end Table

end EventSieve
