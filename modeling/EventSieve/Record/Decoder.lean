import EventSieve.Record.Event
import EventSieve.Record.Feature

/-!
# Decoding rows

Rows are decoded in the order in which they come. A row of the wrong width is an
error and leaves the numbering of sessions as it is; every other row becomes a
record. A batch of rows either stops at the first error or skips and counts the
rows that are wrong. All rows are counted, so an error says which row it was
since the decoder was last reset.
-/

namespace EventSieve

/-- What stays the same while rows are decoded. -/
structure Decoder where
  table : Table
  fallback : String → Cell
  /-- Whether a batch stops at the first error. -/
  failFast : Bool

/-- What has happened while rows were decoded. -/
structure Progress where
  sequence : SessionSequence
  rowsSeen : Nat
  diagnostics : Diagnostics
  /-- The warnings so far, the latest first. -/
  warnings : List Warning

/-- The records of a batch and the number of rows that were skipped. -/
structure Batch (α : Type) where
  records : List α
  skipped : Nat

namespace Progress

/-- Nothing has happened. -/
def start (enabled : Bool) : Progress := ⟨.start, 0, .fresh enabled, []⟩

/-- A new, unrelated row of rows begins; issues seen are kept. -/
def reset (progress : Progress) : Progress :=
  { progress with sequence := .start, rowsSeen := 0 }

/-- Adds a warning to the others. -/
def warn (progress : Progress) (warning : Warning) : Progress :=
  { progress with warnings := warning :: progress.warnings }

end Progress

namespace Decoder

variable {α : Type}

/-- The record of a row by itself, without its place among other records. -/
def readRow (decoder : Decoder) (format : RecordFormat α) (row : Row) : RowReader.Reads α :=
  format.read ⟨decoder.table, row, decoder.fallback⟩

/-- Decodes one row. -/
def decode (decoder : Decoder) (format : RecordFormat α) (progress : Progress) (row : Row) :
    Except RowLengthError α × Progress :=
  let counted := { progress with rowsSeen := progress.rowsSeen + 1 }
  if row.length = decoder.table.columns.length then
    let noted := decoder.readRow format row
    let (diagnostics, warnings) := progress.diagnostics.noteAll noted.notes
    let (record, sequence) := format.complete progress.sequence noted.value
    (.ok record, { counted with
      sequence := sequence
      diagnostics := diagnostics
      warnings := warnings.reverse ++ progress.warnings })
  else
    (.error ⟨decoder.table.name, progress.rowsSeen, decoder.table.columns.length, row.length⟩, counted)

/-- Decodes rows one after the other. -/
def decodeAll (decoder : Decoder) (format : RecordFormat α) :
    Progress → List Row → Except RowLengthError (Batch α) × Progress
  | progress, [] => (.ok ⟨[], 0⟩, progress)
  | progress, row :: rest =>
    match decoder.decode format progress row with
    | (.ok record, progress) =>
      let (batch, progress) := decodeAll decoder format progress rest
      (batch.map fun batch => ⟨record :: batch.records, batch.skipped⟩, progress)
    | (.error error, progress) =>
      if decoder.failFast then (.error error, progress)
      else
        let (batch, progress) := decodeAll decoder format (progress.warn (.skippedRow error)) rest
        (batch.map fun batch => ⟨batch.records, batch.skipped + 1⟩, progress)

/-- A row is refused exactly when its width is not the number of columns. -/
theorem decode_isError_iff (decoder : Decoder) (format : RecordFormat α) (progress : Progress)
    (row : Row) : (∃ error, (decoder.decode format progress row).1 = .error error) ↔
      row.length ≠ decoder.table.columns.length := by
  simp only [decode]
  split
  · rename_i fits
    simp [fits]
  · rename_i unfit
    simp [unfit]

/-- A row of the right width becomes a record that takes its place in the sequence. -/
theorem decode_of_width {decoder : Decoder} {row : Row} (format : RecordFormat α)
    (progress : Progress) (width : row.length = decoder.table.columns.length) :
    ∃ later, decoder.decode format progress row =
        (.ok (format.complete progress.sequence (decoder.readRow format row).value).1, later) ∧
      later.sequence =
        (format.complete progress.sequence (decoder.readRow format row).value).2 := by
  rw [decode, if_pos width]
  exact ⟨_, rfl, rfl⟩

/-- A row of another width is an error and leaves the sequence as it is. -/
theorem decode_of_other_width {decoder : Decoder} {row : Row} (format : RecordFormat α)
    (progress : Progress) (other : row.length ≠ decoder.table.columns.length) :
    ∃ error later, decoder.decode format progress row = (.error error, later) ∧
      later.sequence = progress.sequence := by
  rw [decode, if_neg other]
  exact ⟨_, _, rfl, rfl⟩

section

variable {decoder : Decoder} {format : RecordFormat α} {progress later : Progress} {row : Row}

/-- A record stands in front of the records of the rows behind its row. -/
theorem decodeAll_of_ok {record : α} (made : decoder.decode format progress row = (.ok record, later))
    (rest : List Row) :
    decoder.decodeAll format progress (row :: rest) =
      ((decoder.decodeAll format later rest).1.map fun batch =>
        ⟨record :: batch.records, batch.skipped⟩, (decoder.decodeAll format later rest).2) := by
  rw [decodeAll, made]

/-- The first error stops a batch that is to stop at one. -/
theorem decodeAll_of_stop {error : RowLengthError}
    (failed : decoder.decode format progress row = (.error error, later))
    (stops : decoder.failFast = true) (rest : List Row) :
    decoder.decodeAll format progress (row :: rest) = (.error error, later) := by
  rw [decodeAll, failed]
  exact if_pos stops

/-- Any other batch goes on behind a row that is wrong, and counts it. -/
theorem decodeAll_of_skip {error : RowLengthError}
    (failed : decoder.decode format progress row = (.error error, later))
    (goesOn : decoder.failFast = false) (rest : List Row) :
    decoder.decodeAll format progress (row :: rest) =
      ((decoder.decodeAll format (later.warn (.skippedRow error)) rest).1.map fun batch =>
        ⟨batch.records, batch.skipped + 1⟩,
        (decoder.decodeAll format (later.warn (.skippedRow error)) rest).2) := by
  rw [decodeAll, failed]
  exact if_neg (Bool.eq_false_iff.mp goesOn)

end

/-- Every row is counted. -/
theorem rowsSeen_decode (decoder : Decoder) (format : RecordFormat α) (progress : Progress)
    (row : Row) : (decoder.decode format progress row).2.rowsSeen = progress.rowsSeen + 1 := by
  simp only [decode]
  split <;> rfl

end Decoder

end EventSieve
