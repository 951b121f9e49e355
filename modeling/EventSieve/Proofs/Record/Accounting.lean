import EventSieve.Proofs.Record.Numbering
import EventSieve.Proofs.Record.Totality

/-!
# Every row of a batch is accounted for

A row of a batch becomes one record, or is counted as skipped, or is the error that
stops the batch; its width alone decides which. What a decoder has seen before shows
in two places only: in the number of the row that an error gives, and in the index of
an event whose row gives none. Everything else about a record is what a new decoder
makes of its row alone, so rows can be handed to several calls or several decoders and
the records put together again.

What a batch accounts for is said by its rows, without the decoder's state. A row in
front of a batch is one step of the induction, and batches that account for their rows
account for all rows together.
-/

namespace EventSieve

variable {Kind : Type}

/-- The kinds of records that rows become. -/
inductive RecordKind : Type → Type where
  | event : RecordKind Event
  | feature : RecordKind Feature

namespace RecordKind

/-- How the records of a kind are read and written. -/
def format : RecordKind Kind → RecordFormat Kind
  | .event => Event.format
  | .feature => Feature.format

/-- A record without what only its place among other records says: an event whose row
gives it no index is left without one. -/
def settled (decoder : Decoder) (row : Row) : RecordKind Kind → Kind → Kind
  | .event => fun event =>
    if (decoder.ownIndex row).isSome then event else { event with eventSequenceIndex := none }
  | .feature => id

/-- What comes before a record shows only in what is left out of it. -/
theorem settled_complete (kind : RecordKind Kind) (decoder : Decoder) (row : Row)
    (left right : SessionSequence) :
    kind.settled decoder row
        (kind.format.complete left (decoder.readRow kind.format row).value).1 =
      kind.settled decoder row
        (kind.format.complete right (decoder.readRow kind.format row).value).1 := by
  cases kind with
  | event =>
    have own : (decoder.readRow Event.format row).value.eventSequenceIndex =
        decoder.ownIndex row := rfl
    cases given : decoder.ownIndex row with
    | none => simp [settled, format, Event.format, Event.complete, given]
    | some index =>
      rw [given] at own
      simp only [Event.format] at own
      simp [settled, format, Event.format, Event.complete, given, own]
  | feature => rfl

end RecordKind

/-- The records and the skipped rows of batches put together. -/
def Batch.join (batches : List (Batch Kind)) : Batch Kind where
  records := batches.flatMap Batch.records
  skipped := (batches.map Batch.skipped).sum

namespace Decoder

/-- Whether a record is the one that a new decoder makes of a row alone, whatever
issues and warnings it starts with, but for the index of an event whose row gives
none. -/
def Makes (decoder : Decoder) (kind : RecordKind Kind) (row : Row) (record : Kind) : Prop :=
  ∀ diagnostics warnings, ∃ alone,
    (decoder.decode kind.format ⟨.start, 0, diagnostics, warnings⟩ row).1 = .ok alone ∧
      kind.settled decoder row record = kind.settled decoder row alone

/-- Whether a batch has one record for every row of the right width, in the order of
the rows, and counts the others. -/
structure Accounts (decoder : Decoder) (kind : RecordKind Kind) (rows : List Row)
    (batch : Batch Kind) : Prop where
  records : List.Forall₂ (decoder.Makes kind) (rows.filter decoder.fits) batch.records
  skipped : batch.skipped = (rows.filter fun row => !decoder.fits row).length

/-- The records of a batch without what only their places say. -/
def settledRecords (decoder : Decoder) (kind : RecordKind Kind) (rows : List Row)
    (batch : Batch Kind) : List Kind :=
  List.zipWith (kind.settled decoder) (rows.filter decoder.fits) batch.records

/-- How many rows a call looks at: a batch that stops at an error looks at no row
behind it. -/
def rowCount (decoder : Decoder) : Call → Nat
  | .event _ => 1
  | .feature _ => 1
  | .events failFast rows | .features failFast rows =>
    if failFast then min rows.length ((rows.takeWhile decoder.fits).length + 1) else rows.length
  | .reset => 0

/-- How many rows calls have looked at since the last start, when so many had been
looked at before them. -/
def rowsSince (decoder : Decoder) (seen : Nat) (calls : List Call) : Nat :=
  calls.foldl
    (fun seen call =>
      match call with
      | .reset => 0
      | call => seen + decoder.rowCount call) seen

section

variable {decoder : Decoder} {kind : RecordKind Kind} {row : Row} {rows : List Row}

/-- A row that fits becomes the record that a new decoder makes of it. -/
theorem decode_of_fit (fit : decoder.fits row = true) (kind : RecordKind Kind)
    (progress : Progress) :
    ∃ record later, decoder.decode kind.format progress row = (.ok record, later) ∧
      decoder.Makes kind row record := by
  obtain ⟨later, made, -⟩ := decode_of_width kind.format progress (fits_iff.mp fit)
  refine ⟨_, later, made, ?_⟩
  intro diagnostics warnings
  obtain ⟨own, alone, -⟩ :=
    decode_of_width kind.format ⟨.start, 0, diagnostics, warnings⟩ (fits_iff.mp fit)
  exact ⟨_, congrArg Prod.fst alone, kind.settled_complete decoder row _ _⟩

/-- A row that does not fit is an error that gives the number of the row. -/
theorem decode_of_misfit (unfit : decoder.fits row = false) (format : RecordFormat Kind)
    (progress : Progress) :
    ∃ later, decoder.decode format progress row =
      (.error ⟨decoder.table.name, progress.rowsSeen, decoder.table.columns.length, row.length⟩,
        later) :=
  ⟨_, if_neg (not_fits_iff.mp unfit)⟩

/-- A record of a row in front belongs to the row. -/
theorem Accounts.cons_fit {batch : Batch Kind} {record : Kind} (fit : decoder.fits row = true)
    (made : decoder.Makes kind row record) (rest : decoder.Accounts kind rows batch) :
    decoder.Accounts kind (row :: rows) ⟨record :: batch.records, batch.skipped⟩ := by
  constructor
  · rw [List.filter_cons_of_pos fit]
    exact .cons made rest.records
  · rw [List.filter_cons_of_neg (by simp [fit])]
    exact rest.skipped

/-- A row in front that does not fit counts as skipped. -/
theorem Accounts.cons_misfit {batch : Batch Kind} (unfit : decoder.fits row = false)
    (rest : decoder.Accounts kind rows batch) :
    decoder.Accounts kind (row :: rows) ⟨batch.records, batch.skipped + 1⟩ := by
  constructor
  · rw [List.filter_cons_of_neg (Bool.eq_false_iff.mp unfit)]
    exact rest.records
  · rw [List.filter_cons_of_pos (by simp [unfit]), List.length_cons, ← rest.skipped]

/-- Without a row that stops it, a batch accounts for its rows. The induction is on the
rows, with any progress in front of them: a row of the right width adds its record, and any
other is counted, which is allowed in the mode that goes on only. -/
theorem exists_batch (kind : RecordKind Kind) (progress : Progress)
    (goesOn : decoder.failFast = true → ∀ row ∈ rows, decoder.fits row = true) :
    ∃ batch, (decoder.decodeAll kind.format progress rows).1 = .ok batch ∧
      decoder.Accounts kind rows batch := by
  induction rows generalizing progress with
  | nil => exact ⟨⟨[], 0⟩, rfl, .nil, rfl⟩
  | cons row rest inductionHypothesis =>
    have later : decoder.failFast = true → ∀ row ∈ rest, decoder.fits row = true := by
      intro stops other member
      exact goesOn stops other (List.mem_cons_of_mem row member)
    cases fit : decoder.fits row with
    | true =>
      obtain ⟨record, next, decoded, made⟩ := decode_of_fit fit kind progress
      obtain ⟨batch, others, accounts⟩ := inductionHypothesis next later
      refine ⟨_, ?_, accounts.cons_fit fit made⟩
      rw [decodeAll_of_ok decoded, others]
      rfl
    | false =>
      have mode : decoder.failFast = false := by
        cases stops : decoder.failFast with
        | false => rfl
        | true => exact absurd (goesOn stops row List.mem_cons_self) (by simp [fit])
      obtain ⟨next, failed⟩ := decode_of_misfit fit kind.format progress
      obtain ⟨batch, others, accounts⟩ := inductionHypothesis _ later
      refine ⟨_, ?_, accounts.cons_misfit fit⟩
      rw [decodeAll_of_skip failed mode, others]
      rfl

/-- A batch that is to stop at an error stops at the first row of another width, and the
error gives the number of this row. Every row in front of it has been decoded and counted,
so its number is the number of rows since the start of the count. -/
theorem decodeAll_of_misfit (stops : decoder.failFast = true) (kind : RecordKind Kind)
    (progress : Progress) {front : List Row} (fit : ∀ other ∈ front, decoder.fits other = true)
    (unfit : decoder.fits row = false) (back : List Row) :
    (decoder.decodeAll kind.format progress (front ++ row :: back)).1 =
      .error ⟨decoder.table.name, progress.rowsSeen + front.length, decoder.table.columns.length,
        row.length⟩ := by
  induction front generalizing progress with
  | nil =>
    obtain ⟨next, failed⟩ := decode_of_misfit unfit kind.format progress
    exact congrArg Prod.fst (decodeAll_of_stop failed stops back)
  | cons first more inductionHypothesis =>
    obtain ⟨own, later⟩ := List.forall_mem_cons.mp fit
    obtain ⟨record, next, decoded, -⟩ := decode_of_fit own kind progress
    have counted := rowsSeen_decode decoder kind.format progress first
    rw [decoded] at counted
    have shift : progress.rowsSeen + 1 + more.length = progress.rowsSeen + (more.length + 1) := by
      omega
    rw [List.cons_append, decodeAll_of_ok decoded, inductionHypothesis next later, counted,
      List.length_cons, shift]
    rfl

/-- A batch that is to stop at errors has a result only if all of its rows fit. -/
theorem fits_of_decodeAll_eq_ok (stops : decoder.failFast = true) {progress : Progress}
    {batch : Batch Kind} (made : (decoder.decodeAll kind.format progress rows).1 = .ok batch) :
    ∀ row ∈ rows, decoder.fits row = true := by
  induction rows generalizing progress batch with
  | nil => simp
  | cons row rest inductionHypothesis =>
    cases fit : decoder.fits row with
    | true =>
      obtain ⟨record, next, decoded, -⟩ := decode_of_fit fit kind progress
      rw [decodeAll_of_ok decoded] at made
      cases later : (decoder.decodeAll kind.format next rest).1 with
      | error error =>
        rw [later] at made
        cases made
      | ok others => exact List.forall_mem_cons.mpr ⟨fit, inductionHypothesis later⟩
    | false =>
      obtain ⟨next, failed⟩ := decode_of_misfit fit kind.format progress
      rw [decodeAll_of_stop failed stops] at made
      cases made

/-- Whatever result a batch has accounts for its rows. -/
theorem accounts_of_decodeAll_eq_ok {progress : Progress} {batch : Batch Kind}
    (made : (decoder.decodeAll kind.format progress rows).1 = .ok batch) :
    decoder.Accounts kind rows batch := by
  obtain ⟨other, result, accounts⟩ := exists_batch kind progress fun stops =>
    fits_of_decodeAll_eq_ok stops made
  cases made.symm.trans result
  exact accounts

/-- A batch that is to stop at errors fails exactly when a row does not fit. -/
theorem decodeAll_fails_iff (stops : decoder.failFast = true) (kind : RecordKind Kind)
    (progress : Progress) (rows : List Row) :
    (∃ error, (decoder.decodeAll kind.format progress rows).1 = .error error) ↔
      ∃ row ∈ rows, decoder.fits row = false := by
  constructor
  · rintro ⟨error, failed⟩
    by_contra none
    push Not at none
    obtain ⟨batch, made, -⟩ := exists_batch kind progress fun _ row member =>
      Bool.eq_true_of_not_eq_false (none row member)
    cases failed.symm.trans made
  · rintro ⟨row, member, unfit⟩
    cases made : (decoder.decodeAll kind.format progress rows).1 with
    | error error => exact ⟨error, rfl⟩
    | ok batch => exact absurd (fits_of_decodeAll_eq_ok stops made row member) (by simp [unfit])

/-- A batch counts every row that it looks at. In the mode that stops these are the rows up
to the first of another width and this row itself, and never more than there are. -/
theorem rowsSeen_decodeAll (decoder : Decoder) (format : RecordFormat Kind) (progress : Progress)
    (rows : List Row) :
    (decoder.decodeAll format progress rows).2.rowsSeen = progress.rowsSeen +
      if decoder.failFast then min rows.length ((rows.takeWhile decoder.fits).length + 1)
      else rows.length := by
  induction rows generalizing progress with
  | nil => simp [decodeAll]
  | cons row rest inductionHypothesis =>
    have counted := rowsSeen_decode decoder format progress row
    cases fit : decoder.fits row with
    | true =>
      obtain ⟨later, made, -⟩ := decode_of_width format progress (fits_iff.mp fit)
      rw [made] at counted
      rw [decodeAll_of_ok made, inductionHypothesis later, counted, List.takeWhile_cons_of_pos fit]
      simp only [List.length_cons]
      split <;> omega
    | false =>
      obtain ⟨later, failed⟩ := decode_of_misfit fit format progress
      rw [failed] at counted
      change later.rowsSeen = progress.rowsSeen + 1 at counted
      cases mode : decoder.failFast with
      | true =>
        rw [decodeAll_of_stop failed mode, counted,
          List.takeWhile_cons_of_neg (Bool.eq_false_iff.mp fit)]
        simp
      | false =>
        rw [decodeAll_of_skip failed mode, inductionHypothesis]
        simp only [Progress.warn, counted, mode, Bool.false_eq_true, if_false, List.length_cons]
        omega

/-- A call counts the rows that it looks at, and a start counts from zero. -/
theorem rowsSeen_perform (decoder : Decoder) (progress : Progress) (call : Call) :
    (decoder.perform progress call).2.rowsSeen =
      decoder.rowsSince progress.rowsSeen [call] := by
  cases call with
  | event row => exact rowsSeen_decode decoder Event.format progress row
  | feature row => exact rowsSeen_decode decoder Feature.format progress row
  | events failFast rows =>
    exact rowsSeen_decodeAll (decoder.stopping failFast) Event.format progress rows
  | features failFast rows =>
    exact rowsSeen_decodeAll (decoder.stopping failFast) Feature.format progress rows
  | reset => rfl

/-- A decoder knows how many rows calls have looked at since the last start. -/
theorem rowsSeen_after (decoder : Decoder) (progress : Progress) (calls : List Call) :
    (decoder.after progress calls).rowsSeen = decoder.rowsSince progress.rowsSeen calls := by
  induction calls generalizing progress with
  | nil => rfl
  | cons call rest inductionHypothesis =>
    have first := rowsSeen_perform decoder progress call
    refine (inductionHypothesis _).trans ?_
    rw [first]
    rfl

/-- Batches that account for their rows account for all of the rows together. -/
theorem accounts_join {parts : List (List Row)} {batches : List (Batch Kind)}
    (all : List.Forall₂ (decoder.Accounts kind) parts batches) :
    decoder.Accounts kind parts.flatten (Batch.join batches) := by
  induction all with
  | nil => exact ⟨.nil, rfl⟩
  | cons first _ inductionHypothesis =>
    constructor
    · rw [List.flatten_cons, List.filter_append]
      exact List.rel_append first.records inductionHypothesis.records
    · rw [List.flatten_cons, List.filter_append, List.length_append, ← first.skipped,
        ← inductionHypothesis.skipped]
      rfl

/-- Batches of several calls account for the rows of all of them, whichever calls stop at
errors and whatever the decoder has seen before each. -/
theorem accounts_of_parts {parts : List (Bool × Progress × List Row)}
    {batches : List (Batch Kind)}
    (made : parts.mapM (fun part =>
      ((decoder.stopping part.1).decodeAll kind.format part.2.1 part.2.2).1) = .ok batches) :
    decoder.Accounts kind (parts.map fun part => part.2.2).flatten (Batch.join batches) := by
  apply accounts_join
  rw [List.forall₂_map_left_iff]
  refine (mapM_eq_ok_iff.mp made).imp fun part own made => ?_
  obtain ⟨records, skipped⟩ := accounts_of_decodeAll_eq_ok made
  exact ⟨records, skipped⟩

/-- Records of the same rows are the same but for what only their places say. -/
theorem settled_eq_of_makes {left right : List Kind}
    (first : List.Forall₂ (decoder.Makes kind) rows left)
    (second : List.Forall₂ (decoder.Makes kind) rows right) :
    left.length = right.length ∧
      List.zipWith (kind.settled decoder) rows left =
        List.zipWith (kind.settled decoder) rows right := by
  induction first generalizing right with
  | nil =>
    cases second
    exact ⟨rfl, rfl⟩
  | cons own _ inductionHypothesis =>
    cases second with
    | cons other others =>
      obtain ⟨count, same⟩ := inductionHypothesis others
      obtain ⟨alone, made, left⟩ := own (.fresh false) []
      obtain ⟨again, remade, right⟩ := other (.fresh false) []
      cases made.symm.trans remade
      exact ⟨congrArg (· + 1) count, List.cons_eq_cons.mpr ⟨left.trans right.symm, same⟩⟩

end

/-- A batch accounts for every row. If it goes on behind errors it has one record for each
row of the right width, in order, and counts the others; if it stops at errors it gives one
exactly when some row has another width, with the number that the first such row has since
the last start. Every record is the one that a new decoder makes of its row alone, but for
the index of an event whose row gives none; so rows that are split over several calls or
decoders give the same records but for these indices.

Proof: by induction on the rows a batch makes the record of each row of the right width and
counts the others, or stops at the first of these. What a row is decoded to depends on the
progress only through the index that is filled in, so the settled records are those of new
decoders, and the joined batches of parts make the same ones. The number in the error is the
count of rows, which every call continues. -/
theorem batches_account_for_every_row (kind : RecordKind Kind) (decoder : Decoder)
    (progress : Progress) (rows : List Row) :
    let result := (decoder.decodeAll kind.format progress rows).1
    (decoder.failFast = false → ∃ batch, result = .ok batch ∧ decoder.Accounts kind rows batch) ∧
    (decoder.failFast = true →
      ((∃ error, result = .error error) ↔
        ∃ row ∈ rows, row.length ≠ decoder.table.columns.length) ∧
      (∀ front row back, rows = front ++ row :: back →
        (∀ other ∈ front, other.length = decoder.table.columns.length) →
        row.length ≠ decoder.table.columns.length →
          result = .error ⟨decoder.table.name, progress.rowsSeen + front.length,
            decoder.table.columns.length, row.length⟩) ∧
      ∀ batch, result = .ok batch → decoder.Accounts kind rows batch) ∧
    (∀ calls, (decoder.after progress.reset calls).rowsSeen = decoder.rowsSince 0 calls) ∧
    ∀ parts : List (Bool × Progress × List Row), (parts.map fun part => part.2.2).flatten = rows →
      ∀ batches batch,
        parts.mapM (fun part =>
          ((decoder.stopping part.1).decodeAll kind.format part.2.1 part.2.2).1) = .ok batches →
        result = .ok batch →
          batch.skipped = (Batch.join batches).skipped ∧
          batch.records.length = (Batch.join batches).records.length ∧
          decoder.settledRecords kind rows batch =
            decoder.settledRecords kind rows (Batch.join batches) := by
  intro result
  refine ⟨?goesOn, ?stops, ?counted, ?split⟩
  case goesOn =>
    intro mode
    exact exists_batch kind progress fun stops => absurd (mode.symm.trans stops) (by decide)
  case stops =>
    intro stops
    refine ⟨?_, ?_, fun batch => accounts_of_decodeAll_eq_ok⟩
    · simp only [← not_fits_iff]
      exact decodeAll_fails_iff stops kind progress rows
    · rintro front row back rfl fit unfit
      exact decodeAll_of_misfit stops kind progress (fun other member =>
        fits_iff.mpr (fit other member)) (not_fits_iff.mpr unfit) back
  case counted =>
    intro calls
    exact decoder.rowsSeen_after progress.reset calls
  case split =>
    rintro parts rfl batches batch made whole
    have together := accounts_of_parts made
    have own := accounts_of_decodeAll_eq_ok whole
    obtain ⟨count, same⟩ := settled_eq_of_makes own.records together.records
    exact ⟨own.skipped.trans together.skipped.symm, count, same⟩

/-- A table of scores and how its rows are decoded. -/
def scores (failFast : Bool) : Decoder :=
  ⟨⟨"scores", scoreColumns, scoreMapping, ".", rfl⟩, fun _ => .null, failFast⟩

/-- Three rows of which the second lacks a cell. -/
def scoreRows : List Row := [scoreRow, scoreRow.take 2, scoreRow]

/-- Of rows of which the second lacks a cell, a batch that goes on has two records and
counts one row; a batch that is to stop says, after five other rows, that the row with
number six is wrong. Two calls, of which the second stops at errors, give the same
records. -/
theorem batches_account_for_every_row_scores :
    (∃ batch, ((scores false).decodeAll Event.format (.start true) scoreRows).1 = .ok batch ∧
      (scores false).Accounts .event scoreRows batch ∧ batch.skipped = 1) ∧
    ((scores true).decodeAll Feature.format ⟨.start, 5, .fresh false, []⟩ scoreRows).1 =
      .error ⟨"scores", 6, 3, 2⟩ ∧
    ∀ first second batch,
      ((scores false).decodeAll Event.format (.start true) (scoreRows.take 2)).1 = .ok first →
      ((scores true).decodeAll Event.format (.start false) (scoreRows.drop 2)).1 = .ok second →
      ((scores false).decodeAll Event.format (.start true) scoreRows).1 = .ok batch →
        (scores false).settledRecords .event scoreRows batch =
          (scores false).settledRecords .event scoreRows (Batch.join [first, second]) := by
  refine ⟨?goesOn, ?stops, ?split⟩
  case goesOn =>
    obtain ⟨batch, made, accounts⟩ :=
      (batches_account_for_every_row .event (scores false) (.start true) scoreRows).1 rfl
    exact ⟨batch, made, accounts, accounts.skipped⟩
  case stops =>
    have stopped := batches_account_for_every_row .feature (scores true)
      ⟨.start, 5, .fresh false, []⟩ scoreRows
    exact (stopped.2.1 rfl).2.1 [scoreRow] (scoreRow.take 2) [scoreRow] rfl (by decide) (by decide)
  case split =>
    intro first second batch front back whole
    have split := batches_account_for_every_row .event (scores false) (.start true) scoreRows
    have parts := split.2.2.2
      [(false, .start true, scoreRows.take 2), (true, .start false, scoreRows.drop 2)] rfl
      [first, second] batch (mapM_eq_ok_iff.mpr (.cons front (.cons back .nil))) whole
    exact parts.2.2

end Decoder

end EventSieve
