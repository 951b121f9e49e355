import EventSieve.Clause.Basic
import EventSieve.CommandLine.Arguments
import EventSieve.CommandLine.Files
import EventSieve.Filter.Document
import EventSieve.Record.Decoder

/-!
# Executing commands

A command reads the files that it names and writes one JSON value, or fails with
a message. The table comes first, so a fault in it is reported whatever the other
file holds. The message of a failure is followed by the messages of the errors
behind it.
-/

namespace EventSieve

namespace CommandLine

/-- Why a command fails. -/
inductive Failure where
  /-- The arguments make no command. -/
  | usage
  | table (path : String) (error : TableError)
  | unreadableFilters (path : String)
  | filters (path : String) (error : FilterDocumentError)
  | compilation (dialect : Dialect) (error : FilterError)
  | unreadableRows (path : String)
  | malformedRows (path : String)
  | noRows (path : String)
  | row (error : RowLengthError)
deriving DecidableEq, Repr

/-- The messages of a failure, outermost first. -/
def Failure.chain : Failure → List String
  | .usage => ["the arguments make no command"]
  | .table path error => ["Failed to load schema: " ++ path, error.message]
  | .unreadableFilters path => ["Failed to read filters: " ++ path]
  | .filters path error => ("Failed to parse filters: " ++ path) :: error.chain
  | .compilation dialect error => ("Failed to compile filters for " ++ dialect.name) :: error.chain
  | .unreadableRows path => ["Failed to read rows: " ++ path]
  | .malformedRows path => ["Rows must be a JSON array of arrays: " ++ path]
  | .noRows path => ["No rows in " ++ path]
  | .row error => [error.message]

/-- The text of a failure. -/
def Failure.message (failure : Failure) : String :=
  "Error: " ++ String.intercalate ": " failure.chain

/-- The code that a failed program ends with. -/
def Failure.exitCode : Failure → Nat
  | .usage => 2
  | _ => 1

end CommandLine

/-- The table of a document in a file. -/
def Table.ofFile (content : Option ByteArray) : Except TableError Table :=
  match content.bind String.fromUTF8? with
  | some text => Table.ofText text
  | none => .error .unreadableFile

namespace CommandLine

/-- The table of a command. -/
def readTable (files : Files) (path : String) : Except Failure Table :=
  (Table.ofFile (files path)).mapError (.table path)

/-- Compiles a filter document into a clause. -/
def runCompile (files : Files) (tablePath filtersPath : String) (dialect : Dialect) :
    Except Failure Json := do
  let table ← readTable files tablePath
  let some content := files.text? filtersPath | throw (.unreadableFilters filtersPath)
  let collection ← (FilterCollection.read content).mapError (.filters filtersPath)
  let clause ← (Clause.ofCollection dialect (.ofTable table) collection).mapError
    (.compilation dialect)
  return .object [("backend", .text dialect.name), ("text", .text clause.text),
    ("parameters", clause.parametersJson)]

/-- The rows that a document spells: a list of lists. -/
def rowsOf? (content : String) : Option (List Row) :=
  match Json.read? content with
  | some (.list items) => items.mapM fun item =>
    match item with
    | .list cells => some (cells.map Cell.ofJson)
    | _ => none
  | _ => none

/-- Decodes rows into the JSON values of their records. -/
def decodeRows {α : Type} (decoder : Decoder) (format : RecordFormat α) (toJson : α → Json)
    (rows : List Row) : Except Failure Json :=
  let (batch, progress) := decoder.decodeAll format (.start true) rows
  match batch with
  | .error error => .error (.row error)
  | .ok batch =>
    .ok (.object [("records", .list (batch.records.map toJson)), ("skipped", .ofInt batch.skipped),
      ("warned_fields", .list (progress.diagnostics.warnedFields.map .text))])

/-- Decodes a document of rows into records. -/
def runDecode (files : Files) (tablePath rowsPath : String) (kind : RecordKind) (failFast : Bool) :
    Except Failure Json := do
  let table ← readTable files tablePath
  let some content := files.text? rowsPath | throw (.unreadableRows rowsPath)
  let some rows := rowsOf? content | throw (.malformedRows rowsPath)
  if rows.isEmpty then throw (.noRows rowsPath)
  let decoder : Decoder := ⟨table, fun _ => .null, failFast⟩
  match kind with
  | .event => decodeRows decoder Event.format Event.toJson rows
  | .feature => decodeRows decoder Feature.format Feature.toJson rows

/-- The value that a command writes. -/
def Command.execute (files : Files) : Command → Except Failure Json
  | .compile tablePath filtersPath dialect => runCompile files tablePath filtersPath dialect
  | .decode tablePath rowsPath kind failFast => runDecode files tablePath rowsPath kind failFast

/-- The files that a command reads. -/
def Command.paths : Command → List String
  | .compile tablePath filtersPath _ => [tablePath, filtersPath]
  | .decode tablePath rowsPath _ _ => [tablePath, rowsPath]

/-- The text that an invocation writes, with its final line break. -/
def Invocation.output (invocation : Invocation) (files : Files) : Except Failure String := do
  let value ← invocation.command.execute files
  return (if invocation.indented then value.indented else value.compact) ++ "\n"

/-- The text that a command line writes. -/
def run (environment : Option String) (files : Files) (arguments : List String) :
    Except Failure String :=
  match Invocation.ofArguments? environment arguments with
  | some invocation => invocation.output files
  | none => .error .usage

end CommandLine

end EventSieve
