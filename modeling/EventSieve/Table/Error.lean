import EventSieve.Number.Notation

/-!
# Tables that cannot be built

A table is refused because of a column, because of an entry of its column map,
or because its document cannot be read. Each cause has its message.
-/

namespace EventSieve

/-- What is wrong with the form of a column map entry. -/
inductive LocatorFault where
  /-- The entry is none of the forms of a locator. -/
  | unsupportedEntry
  /-- The value of a key is no reference to a column. -/
  | unsupportedReference (key : String)
  /-- The entry is a list without columns. -/
  | emptyList
deriving DecidableEq, Repr

/-- The description of a wrong form. -/
def LocatorFault.message : LocatorFault → String
  | .unsupportedEntry => "data did not match any variant of untagged enum LocatorEntry"
  | .unsupportedReference key =>
    "key '" ++ key ++ "': data did not match any variant of untagged enum ColumnRef"
  | .emptyList => "list locator needs at least one column"

/-- Why a table cannot be built. -/
inductive TableError where
  | indexOutOfRange (table field : String) (index columns : Nat)
  | unknownColumn (table field column : String)
  | duplicateColumn (table column : String)
  | unknownType (tag : String)
  | invalidLocator (field : String) (fault : LocatorFault)
  /-- The text is no document of a table. -/
  | unreadableDocument
  /-- There is no such file, or it holds no text. -/
  | unreadableFile
deriving DecidableEq, Repr

/-- The message of an error. -/
def TableError.message : TableError → String
  | .indexOutOfRange table field index columns =>
    "Column map entry '" ++ field ++ "' references index " ++ Number.integerText index ++
      ", but table '" ++ table ++ "' has " ++ Number.integerText columns ++ " columns"
  | .unknownColumn table field column =>
    "Column map entry '" ++ field ++ "' references unknown column '" ++ column ++ "' in table '" ++
      table ++ "'"
  | .duplicateColumn table column => "Duplicate column '" ++ column ++ "' in table '" ++ table ++ "'"
  | .unknownType tag => "Unknown column type '" ++ tag ++ "'"
  | .invalidLocator field fault => "Invalid column map entry '" ++ field ++ "': " ++ fault.message
  | .unreadableDocument => "Invalid schema document: unexpected content"
  | .unreadableFile => "IO error: the file holds no readable text"

end EventSieve
