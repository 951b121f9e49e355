import EventSieve.Cell.Row
import EventSieve.Filter.Document
import EventSieve.Table.Error

/-!
# Errors of the whole pipeline

Whoever drives the whole pipeline meets the errors of all its steps, and each keeps its
message. Some of them come from configuration: the document of a table or of filters has
to be changed. The others come from what these are applied to: filters do not go together
with the columns that they are compiled for, or a row does not fit its table.

A contradiction within filters may be on either side. It is a fault of the document when
one is read, and none of the configuration when a collection that was put together in
another way is compiled.
-/

namespace EventSieve

/-- An error of some step of the pipeline. -/
inductive PipelineError where
  /-- A table cannot be built. -/
  | table (error : TableError)
  /-- A clause or masks cannot be made of a collection of filters. -/
  | compilation (error : FilterError)
  /-- A row cannot be decoded. -/
  | decoding (error : RowLengthError)
  /-- A filter document is refused. -/
  | filters (error : FilterDocumentError)
deriving DecidableEq, Repr

instance : Coe TableError PipelineError := ⟨.table⟩

instance : Coe FilterError PipelineError := ⟨.compilation⟩

instance : Coe RowLengthError PipelineError := ⟨.decoding⟩

instance : Coe FilterDocumentError PipelineError := ⟨.filters⟩

namespace PipelineError

/-- The message of an error, which is that of the step. -/
def message : PipelineError → String
  | .table error => error.message
  | .compilation error => error.message
  | .decoding error => error.message
  | .filters error => error.message

/-- Whether an error comes from configuration rather than from data. -/
def isConfiguration : PipelineError → Bool
  | .table _ | .filters _ => true
  | .compilation _ | .decoding _ => false

end PipelineError

end EventSieve
