import EventSieve.CommandLine.Execution
import EventSieve.PipelineError

/-!
# Why commands fail

A command that fails reports the error of a step of the pipeline, or something about its
arguments and files that no step has seen. The message of such an error is among those of
the failure.

Whether a failure comes from configuration depends on the documents of the command alone:
on that of its table and, when it compiles, on that of its filters. Neither the dialect nor
the rows matter, for the documents are read before anything is done with them.
-/

namespace EventSieve.CommandLine

/-- The error of a step of the pipeline that is behind a failure. -/
def Failure.cause? : Failure → Option PipelineError
  | .table _ error => some error
  | .filters _ error => some error
  | .compilation _ error => some error
  | .row error => some error
  | .usage | .unreadableFilters _ | .unreadableRows _ | .malformedRows _ | .noRows _ => none

/-- Whether a command fails because of an error that comes from configuration. -/
def Command.FailsByConfiguration (files : Files) (command : Command) : Prop :=
  ∃ failure error, command.execute files = .error failure ∧ failure.cause? = some error ∧
    error.isConfiguration = true

/-- Whether one of the documents that a command reads is refused. -/
def Command.HasRefusedDocument (files : Files) : Command → Prop
  | .compile tablePath filtersPath _ =>
    (∃ error, Table.ofFile (files tablePath) = .error error) ∨
      ∃ content error, files.text? filtersPath = some content ∧
        FilterCollection.read content = .error error
  | .decode tablePath _ _ _ => ∃ error, Table.ofFile (files tablePath) = .error error

/-- A failure reports the message of the error behind it, whatever it says in front. A
failure of a document or of a clause has its path or dialect in the line before. -/
theorem Failure.message_mem_chain {failure : Failure} {error : PipelineError}
    (caused : failure.cause? = some error) : error.message ∈ failure.chain := by
  have compiling (error : FilterError) : error.message ∈ error.chain := by
    cases error <;> exact List.mem_cons_self
  have reading (error : FilterDocumentError) : error.message ∈ error.chain := by
    cases error <;> exact List.mem_cons_self
  cases failure with
  | table path error =>
    cases caused
    exact List.mem_cons_of_mem _ List.mem_cons_self
  | filters path error =>
    cases caused
    exact List.mem_cons_of_mem _ (reading error)
  | compilation dialect error =>
    cases caused
    exact List.mem_cons_of_mem _ (compiling error)
  | row error =>
    cases caused
    exact List.mem_cons_self
  | usage | unreadableFilters path | unreadableRows path | malformedRows path | noRows path =>
    cases caused

/-- A step in front of others ends a command with its own error, or leaves the end to them. -/
theorem step_eq_error_iff {Fault Value Other : Type} {step : Except Fault Value}
    {report : Fault → Failure} {rest : Value → Except Failure Other} {failure : Failure} :
    (step.mapError report >>= rest) = .error failure ↔
      (∃ fault, step = .error fault ∧ report fault = failure) ∨
        ∃ value, step = .ok value ∧ rest value = .error failure := by
  cases step with
  | error fault =>
    constructor
    · intro same
      exact .inl ⟨fault, rfl, Except.error.inj same⟩
    · rintro (⟨_, own, rfl⟩ | ⟨_, impossible, _⟩)
      · cases own
        rfl
      · cases impossible
  | ok value =>
    constructor
    · intro later
      exact .inr ⟨value, rfl, later⟩
    · rintro (⟨_, impossible, _⟩ | ⟨_, own, later⟩)
      · cases impossible
      · cases own
        exact later

/-- A table that is refused ends a command, whatever would be done with it. -/
theorem readTable_eq_error {Other : Type} {files : Files} {path : String} {error : TableError}
    (refused : Table.ofFile (files path) = .error error) (rest : Table → Except Failure Other) :
    (readTable files path >>= rest) = .error (.table path error) :=
  step_eq_error_iff.mpr (.inl ⟨error, refused, rfl⟩)

/-- Behind a table that is loaded, a command to compile ends with its filters or with their
clause, or it does not come as far. -/
theorem exists_of_runCompile {files : Files} {tablePath filtersPath : String} {dialect : Dialect}
    {failure : Failure} {table : Table} (loaded : Table.ofFile (files tablePath) = .ok table)
    (failed : runCompile files tablePath filtersPath dialect = .error failure) :
    failure.cause? = none ∨ (∃ error : FilterError, failure.cause? = some error) ∨
      ∃ content error, files.text? filtersPath = some content ∧
        FilterCollection.read content = .error error := by
  rw [runCompile, readTable] at failed
  rcases step_eq_error_iff.mp failed with ⟨error, refused, _⟩ | ⟨_, _, later⟩
  · cases loaded.symm.trans refused
  · cases found : files.text? filtersPath with
    | none =>
      rw [found] at later
      cases later
      exact .inl rfl
    | some content =>
      rw [found] at later
      rcases step_eq_error_iff.mp later with ⟨error, refused, _⟩ | ⟨collection, _, last⟩
      · exact .inr (.inr ⟨content, error, rfl, refused⟩)
      · rcases step_eq_error_iff.mp last with ⟨error, _, rfl⟩ | ⟨_, _, done⟩
        · exact .inr (.inl ⟨error, rfl⟩)
        · cases done

/-- Decoding rows ends with a row or not at all. -/
theorem exists_of_decodeRows {α : Type} {decoder : Decoder} {format : RecordFormat α}
    {toJson : α → Json} {rows : List Row} {failure : Failure}
    (failed : decodeRows decoder format toJson rows = .error failure) :
    ∃ error : RowLengthError, failure.cause? = some error := by
  simp only [decodeRows] at failed
  split at failed
  · cases failed
    exact ⟨_, rfl⟩
  · cases failed

/-- Behind a table that is loaded, a command to decode ends with one of its rows, or it does
not come as far. -/
theorem exists_of_runDecode {files : Files} {tablePath rowsPath : String} {kind : RecordKind}
    {failFast : Bool} {failure : Failure} {table : Table}
    (loaded : Table.ofFile (files tablePath) = .ok table)
    (failed : runDecode files tablePath rowsPath kind failFast = .error failure) :
    failure.cause? = none ∨ ∃ error : RowLengthError, failure.cause? = some error := by
  rw [runDecode, readTable] at failed
  rcases step_eq_error_iff.mp failed with ⟨error, refused, _⟩ | ⟨_, _, later⟩
  · cases loaded.symm.trans refused
  · cases found : files.text? rowsPath with
    | none =>
      rw [found] at later
      cases later
      exact .inl rfl
    | some content =>
      cases spelled : rowsOf? content with
      | none =>
        simp only [found, spelled] at later
        cases later
        exact .inl rfl
      | some rows =>
        cases blank : rows.isEmpty with
        | true =>
          simp only [found, spelled, blank] at later
          cases later
          exact .inl rfl
        | false =>
          simp only [found, spelled, blank, Bool.false_eq_true, if_false] at later
          cases kind with
          | event => exact .inr (exists_of_decodeRows later)
          | feature => exact .inr (exists_of_decodeRows later)

/-- A command fails because of configuration exactly when a document of it is refused.

Proof: a command goes through its steps in order. The table is loaded first, and then the
filters are read; an error of either is one of configuration and ends the command. Behind
them a file can be missing or unreadable, which no step has seen, and the last step can
fail, with an error of a clause or of a row. -/
theorem Command.failsByConfiguration_iff (files : Files) (command : Command) :
    command.FailsByConfiguration files ↔ command.HasRefusedDocument files := by
  constructor
  · rintro ⟨failure, error, failed, caused, configuration⟩
    cases command with
    | compile tablePath filtersPath dialect =>
      cases loaded : Table.ofFile (files tablePath) with
      | error refused => exact .inl ⟨refused, loaded⟩
      | ok table =>
        rcases exists_of_runCompile loaded failed with none | ⟨misfit, own⟩ | refused
        · cases none.symm.trans caused
        · cases own.symm.trans caused
          cases configuration
        · exact .inr refused
    | decode tablePath rowsPath kind failFast =>
      cases loaded : Table.ofFile (files tablePath) with
      | error refused => exact ⟨refused, loaded⟩
      | ok table =>
        rcases exists_of_runDecode loaded failed with none | ⟨row, own⟩
        · cases none.symm.trans caused
        · cases own.symm.trans caused
          cases configuration
  · intro refused
    cases command with
    | compile tablePath filtersPath dialect =>
      cases loaded : Table.ofFile (files tablePath) with
      | error error =>
        exact ⟨.table tablePath error, error, readTable_eq_error loaded _, rfl, rfl⟩
      | ok table =>
        rcases refused with ⟨error, failed⟩ | ⟨content, error, found, failed⟩
        · cases loaded.symm.trans failed
        · refine ⟨.filters filtersPath error, error, ?_, rfl, rfl⟩
          refine step_eq_error_iff.mpr (.inr ⟨table, loaded, ?_⟩)
          rw [found]
          exact step_eq_error_iff.mpr (.inl ⟨error, failed, rfl⟩)
    | decode tablePath rowsPath kind failFast =>
      obtain ⟨error, failed⟩ := refused
      exact ⟨.table tablePath error, error, readTable_eq_error failed _, rfl, rfl⟩

end EventSieve.CommandLine
