import EventSieve.Record.Decoder

/-!
# Numbers of events over whole runs

One decoder may be asked for events and features, row by row and in batches that
stop at an error or go on behind it, and may start anew in between. An event without
an index of its own is numbered by how many events directly before it are of its
session, over all of these calls since the last start.

Which rows events come from is said by the rows and their widths alone: a row of
another width gives none, a batch that stops at an error still counts the events
before it, and a feature is no event. The numbers are said by the sessions of these
rows. Neither mentions the counter that is kept from row to row; that the counter
agrees with them is what one row keeps, then one batch, and then a whole run.
-/

namespace EventSieve

/-- How many records directly behind which one of a session would stand form an
unbroken run of that session. -/
def runBefore (sessions : List String) (session : String) : Nat :=
  (sessions.reverse.takeWhile fun before => before = session).length

/-- Whether a sequence numbers the next record of any session by the run that it
would go on with. -/
def SessionSequence.Counts (sequence : SessionSequence) (sessions : List String) : Prop :=
  ∀ session, (sequence.observe session).1 = runBefore sessions session

/-- Before the first record there is no run. -/
theorem SessionSequence.counts_start : start.Counts [] :=
  fun _ => rfl

/-- A record that is observed is counted. -/
theorem SessionSequence.Counts.observe {sequence : SessionSequence} {sessions : List String}
    (counts : sequence.Counts sessions) (session : String) :
    (sequence.observe session).2.Counts (sessions ++ [session]) := by
  intro other
  have front : (sessions ++ [session]).reverse = session :: sessions.reverse := by simp
  rw [runBefore, front]
  by_cases same : session = other
  · subst same
    rw [observe_observe, counts session, List.takeWhile_cons_of_pos (by simp)]
    rfl
  · rw [List.takeWhile_cons_of_neg (by simpa using same)]
    simp [SessionSequence.observe, same]

example : runBefore ["a", "b", "a", "a"] "a" = 2 := by decide

namespace Decoder

/-- What a decoder can be asked for. A batch says whether it stops at an error. -/
inductive Call where
  | event (row : Row)
  | feature (row : Row)
  | events (failFast : Bool) (rows : List Row)
  | features (failFast : Bool) (rows : List Row)
  | reset

/-- What a call gives back. -/
inductive Reply where
  | event (result : Except RowLengthError Event)
  | feature (result : Except RowLengthError Feature)
  | events (result : Except RowLengthError (Batch Event))
  | features (result : Except RowLengthError (Batch Feature))
  | reset

/-- The events that a reply gives back, unless it is an error. -/
def Reply.events? : Reply → Option (List Event)
  | .event result => result.toOption.map fun event => [event]
  | .events result => result.toOption.map Batch.records
  | .feature result => result.toOption.map fun _ => []
  | .features result => result.toOption.map fun _ => []
  | .reset => some []

/-- A decoder whose batches stop at an error, or do not. -/
def stopping (decoder : Decoder) (failFast : Bool) : Decoder :=
  { decoder with failFast := failFast }

/-- Answers one call. -/
def perform (decoder : Decoder) (progress : Progress) : Call → Reply × Progress
  | .event row => (decoder.decode Event.format progress row).map .event id
  | .feature row => (decoder.decode Feature.format progress row).map .feature id
  | .events failFast rows =>
    ((decoder.stopping failFast).decodeAll Event.format progress rows).map .events id
  | .features failFast rows =>
    ((decoder.stopping failFast).decodeAll Feature.format progress rows).map .features id
  | .reset => (.reset, progress.reset)

/-- What has happened when calls have been answered. -/
def after (decoder : Decoder) (progress : Progress) (calls : List Call) : Progress :=
  calls.foldl (fun progress call => (decoder.perform progress call).2) progress

section

variable {Kind : Type}

/-- The records that a batch comes to, also those before an error that stops it. -/
def reached (decoder : Decoder) (format : RecordFormat Kind) : Progress → List Row → List Kind
  | _, [] => []
  | progress, row :: rest =>
    match decoder.decode format progress row with
    | (.ok record, progress) => record :: reached decoder format progress rest
    | (.error error, progress) =>
      if decoder.failFast then []
      else reached decoder format (progress.warn (.skippedRow error)) rest

end

/-- The events that a call decodes, also those that an error drops. -/
def decoded (decoder : Decoder) (progress : Progress) : Call → List Event
  | .event row => (decoder.decode Event.format progress row).1.toOption.toList
  | .events failFast rows => (decoder.stopping failFast).reached Event.format progress rows
  | .feature _ => []
  | .features _ _ => []
  | .reset => []

/-- Whether a row is as wide as the table. -/
def fits (decoder : Decoder) (row : Row) : Bool :=
  row.length = decoder.table.columns.length

/-- The rows of a batch that become records: those before the first row of another
width, or all but those. -/
def batchRows (decoder : Decoder) (rows : List Row) : List Row :=
  if decoder.failFast then rows.takeWhile decoder.fits else rows.filter decoder.fits

/-- The rows of a call that become events. -/
def eventRows (decoder : Decoder) : Call → List Row
  | .event row => [row].filter decoder.fits
  | .events failFast rows => (decoder.stopping failFast).batchRows rows
  | .feature _ => []
  | .features _ _ => []
  | .reset => []

/-- The rows that have become events since the last start, in order. -/
def eventRowsSince (decoder : Decoder) (rows : List Row) (calls : List Call) : List Row :=
  calls.foldl
    (fun rows call =>
      match call with
      | .reset => []
      | call => rows ++ decoder.eventRows call) rows

/-- Whether a call gives an error: its row has another width, or it stops at such a
row. -/
def refuses (decoder : Decoder) : Call → Bool
  | .event row => !decoder.fits row
  | .feature row => !decoder.fits row
  | .events failFast rows => failFast && !rows.all decoder.fits
  | .features failFast rows => failFast && !rows.all decoder.fits
  | .reset => false

/-- The session of the event of a row. -/
def session (decoder : Decoder) (row : Row) : String :=
  (decoder.readRow Event.format row).value.sessionId

/-- The index that a row gives its event. -/
def ownIndex (decoder : Decoder) (row : Row) : Option Int64 :=
  (RowReader.integer ⟨decoder.table, row, decoder.fallback⟩ "event_sequence_index").value

/-- The event of a row behind the rows of other events. -/
def numbered (decoder : Decoder) (before : List Row) (row : Row) : Event :=
  let number := runBefore (before.map decoder.session) (decoder.session row)
  { (decoder.readRow Event.format row).value with
    eventSequenceIndex := some ((decoder.ownIndex row).getD (Int64.ofNat number)) }

/-- The events of rows that come one after the other behind the rows of other events. -/
def numberedAll (decoder : Decoder) (before rows : List Row) : List Event :=
  rows.mapIdx fun position row => decoder.numbered (before ++ rows.take position) row

/-- The first of several rows is numbered, and then the others behind it. -/
theorem numberedAll_cons (decoder : Decoder) (before : List Row) (row : Row) (rest : List Row) :
    decoder.numberedAll before (row :: rest) =
      decoder.numbered before row :: decoder.numberedAll (before ++ [row]) rest := by
  simp only [numberedAll, List.mapIdx_cons, List.take_zero, List.append_nil, List.take_succ_cons,
    List.append_assoc, List.singleton_append]

/-- Whether the sequence of a decoder numbers by the rows that have become events. -/
def Numbers (decoder : Decoder) (progress : Progress) (before : List Row) : Prop :=
  progress.sequence.Counts (before.map decoder.session)

section

variable {Kind : Type} {decoder : Decoder} {row : Row}

/-- A row that fits is as wide as the table. -/
theorem fits_iff : decoder.fits row = true ↔ row.length = decoder.table.columns.length := by
  simp [fits]

/-- A row that does not fit has another width. -/
theorem not_fits_iff : decoder.fits row = false ↔ row.length ≠ decoder.table.columns.length := by
  simp [fits]

/-- A row that fits is the next one of its batch. -/
theorem batchRows_of_fit (fit : decoder.fits row = true) (rest : List Row) :
    decoder.batchRows (row :: rest) = row :: decoder.batchRows rest := by
  unfold batchRows
  split
  · exact List.takeWhile_cons_of_pos fit
  · exact List.filter_cons_of_pos fit

/-- No row behind one that does not fit is in a batch that stops there. -/
theorem batchRows_of_stop (unfit : decoder.fits row = false) (stops : decoder.failFast = true)
    (rest : List Row) : decoder.batchRows (row :: rest) = [] := by
  rw [batchRows, if_pos stops, List.takeWhile_cons_of_neg (Bool.eq_false_iff.mp unfit)]

/-- A row that does not fit is left out of any other batch. -/
theorem batchRows_of_skip (unfit : decoder.fits row = false) (goesOn : decoder.failFast = false)
    (rest : List Row) : decoder.batchRows (row :: rest) = decoder.batchRows rest := by
  have going : ¬ decoder.failFast = true := Bool.eq_false_iff.mp goesOn
  rw [batchRows, batchRows, if_neg going, if_neg going,
    List.filter_cons_of_neg (Bool.eq_false_iff.mp unfit)]

/-- A row is decoded exactly when it fits. -/
theorem isSome_decode (decoder : Decoder) (format : RecordFormat Kind) (progress : Progress)
    (row : Row) : (decoder.decode format progress row).1.toOption.isSome = decoder.fits row := by
  cases fit : decoder.fits row with
  | true =>
    obtain ⟨later, made, -⟩ := decode_of_width format progress (fits_iff.mp fit)
    rw [made]
    rfl
  | false =>
    obtain ⟨error, later, failed, -⟩ :=
      decode_of_other_width format progress (not_fits_iff.mp fit)
    rw [failed]
    rfl

/-- One more record of a batch stands in front of the others, unless there is an
error. -/
theorem records_cons (result : Except RowLengthError (Batch Kind)) (record : Kind) :
    (result.map fun batch => (⟨record :: batch.records, batch.skipped⟩ : Batch Kind)).toOption.map
      Batch.records = (result.toOption.map Batch.records).map (List.cons record) := by
  cases result <;> rfl

/-- Counting a row that is skipped keeps the records of a batch. -/
theorem records_skip (result : Except RowLengthError (Batch Kind)) :
    (result.map fun batch => (⟨batch.records, batch.skipped + 1⟩ : Batch Kind)).toOption.map
      Batch.records = result.toOption.map Batch.records := by
  cases result <;> rfl

/-- A batch gives back the records that it came to, unless an error stopped it. The
induction goes along the rows: one of another width drops everything in the mode that stops,
and is passed over in the other. -/
theorem records_decodeAll (decoder : Decoder) (format : RecordFormat Kind) (progress : Progress)
    (rows : List Row) :
    (decoder.decodeAll format progress rows).1.toOption.map Batch.records =
      if decoder.failFast && !rows.all decoder.fits then none
      else some (decoder.reached format progress rows) := by
  induction rows generalizing progress with
  | nil => simp [decodeAll, reached, Except.toOption]
  | cons row rest inductionHypothesis =>
    rw [List.all_cons]
    cases fit : decoder.fits row with
    | true =>
      obtain ⟨later, made, -⟩ := decode_of_width format progress (fits_iff.mp fit)
      rw [decodeAll_of_ok made, reached, made, records_cons, inductionHypothesis, Bool.true_and]
      cases decoder.failFast && !rest.all decoder.fits <;> rfl
    | false =>
      obtain ⟨error, later, failed, -⟩ :=
        decode_of_other_width format progress (not_fits_iff.mp fit)
      cases mode : decoder.failFast with
      | true =>
        rw [decodeAll_of_stop failed mode]
        rfl
      | false =>
        have kept := inductionHypothesis (later.warn (.skippedRow error))
        rw [mode, Bool.false_and] at kept
        rw [decodeAll_of_skip failed mode, reached, failed, Bool.false_and]
        refine (records_skip _).trans (kept.trans ?_)
        simp only [mode, Bool.false_eq_true, if_false]

/-- A feature takes no place among the events. -/
theorem sequence_decode_feature (decoder : Decoder) (progress : Progress) (row : Row) :
    (decoder.decode Feature.format progress row).2.sequence = progress.sequence := by
  cases fit : decoder.fits row with
  | true =>
    obtain ⟨later, made, kept⟩ := decode_of_width Feature.format progress (fits_iff.mp fit)
    rw [made]
    exact kept
  | false =>
    obtain ⟨error, later, failed, kept⟩ :=
      decode_of_other_width Feature.format progress (not_fits_iff.mp fit)
    rw [failed]
    exact kept

/-- A batch of features leaves the sequence as it is. Features have no index to be filled
in, and a row that is skipped counts for nothing. -/
theorem sequence_decodeAll_feature (decoder : Decoder) (progress : Progress) (rows : List Row) :
    (decoder.decodeAll Feature.format progress rows).2.sequence = progress.sequence := by
  induction rows generalizing progress with
  | nil => rfl
  | cons row rest inductionHypothesis =>
    cases fit : decoder.fits row with
    | true =>
      obtain ⟨later, made, kept⟩ := decode_of_width Feature.format progress (fits_iff.mp fit)
      rw [decodeAll_of_ok made]
      exact (inductionHypothesis later).trans kept
    | false =>
      obtain ⟨error, later, failed, kept⟩ :=
        decode_of_other_width Feature.format progress (not_fits_iff.mp fit)
      cases mode : decoder.failFast with
      | true =>
        rw [decodeAll_of_stop failed mode]
        exact kept
      | false =>
        rw [decodeAll_of_skip failed mode]
        exact (inductionHypothesis _).trans kept

end

section

variable {decoder : Decoder} {progress : Progress} {before : List Row} {row : Row}

/-- An event that takes its place is numbered by the rows before it, and is counted
whether it has an index of its own or not. -/
theorem Numbers.decode_event (numbers : decoder.Numbers progress before)
    (fit : decoder.fits row = true) :
    ∃ later, decoder.decode Event.format progress row = (.ok (decoder.numbered before row), later) ∧
      decoder.Numbers later (before ++ [row]) := by
  obtain ⟨later, made, sequence⟩ := decode_of_width Event.format progress (fits_iff.mp fit)
  have number := numbers (decoder.session row)
  refine ⟨later, ?_, ?_⟩
  · rw [made, numbered, ← number]
    rfl
  · rw [Numbers, sequence, List.map_append]
    exact SessionSequence.Counts.observe numbers (decoder.session row)

/-- A row is numbered behind the rows before it if it fits, and else changes nothing. -/
theorem Numbers.single (numbers : decoder.Numbers progress before) (row : Row) :
    (decoder.decode Event.format progress row).1.toOption.toList =
        decoder.numberedAll before ([row].filter decoder.fits) ∧
      decoder.Numbers (decoder.decode Event.format progress row).2
        (before ++ [row].filter decoder.fits) := by
  cases fit : decoder.fits row with
  | true =>
    obtain ⟨later, made, counted⟩ := numbers.decode_event fit
    rw [List.filter_cons_of_pos fit, List.filter_nil, numberedAll_cons, made]
    exact ⟨rfl, counted⟩
  | false =>
    obtain ⟨error, later, failed, kept⟩ :=
      decode_of_other_width Event.format progress (not_fits_iff.mp fit)
    rw [List.filter_cons_of_neg (Bool.eq_false_iff.mp fit), List.filter_nil, List.append_nil, failed]
    exact ⟨rfl, by rwa [Numbers, kept]⟩

/-- The events that a batch comes to are numbered behind the rows before it, and all of them
are counted, also when an error drops them. The induction is on the rows that are left, with
any rows before them. A row of another width adds no event, and in the mode that stops
nothing behind it is decoded. -/
theorem Numbers.batch (numbers : decoder.Numbers progress before) (rows : List Row) :
    decoder.reached Event.format progress rows =
        decoder.numberedAll before (decoder.batchRows rows) ∧
      decoder.Numbers (decoder.decodeAll Event.format progress rows).2
        (before ++ decoder.batchRows rows) := by
  -- Every event of the batch joins the rows before the ones that are left.
  induction rows generalizing progress before with
  | nil =>
    have empty : decoder.batchRows [] = [] := by simp [batchRows]
    rw [empty, List.append_nil]
    exact ⟨rfl, numbers⟩
  | cons row rest inductionHypothesis =>
    cases fit : decoder.fits row with
    | true =>
      obtain ⟨later, made, counted⟩ := numbers.decode_event fit
      obtain ⟨records, counts⟩ := inductionHypothesis counted
      rw [batchRows_of_fit fit, decodeAll_of_ok made, reached, made, numberedAll_cons]
      rw [List.append_assoc] at counts
      exact ⟨congrArg (List.cons _) records, counts⟩
    | false =>
      obtain ⟨error, later, failed, kept⟩ :=
        decode_of_other_width Event.format progress (not_fits_iff.mp fit)
      cases mode : decoder.failFast with
      | true =>
        rw [batchRows_of_stop fit mode, decodeAll_of_stop failed mode, reached, failed,
          List.append_nil]
        exact ⟨if_pos mode, by rwa [Numbers, kept]⟩
      | false =>
        have still : decoder.Numbers (later.warn (.skippedRow error)) before := by
          rw [Numbers]
          exact kept ▸ numbers
        obtain ⟨records, counts⟩ := inductionHypothesis still
        rw [batchRows_of_skip fit mode, decodeAll_of_skip failed mode, reached, failed]
        exact ⟨(if_neg (Bool.eq_false_iff.mp mode)).trans records, counts⟩

/-- One call decodes the events of its rows, numbered behind those before it. -/
theorem Numbers.decoded_eq (numbers : decoder.Numbers progress before) (call : Call) :
    decoder.decoded progress call = decoder.numberedAll before (decoder.eventRows call) := by
  cases call with
  | event row => exact (numbers.single row).1
  | events failFast rows =>
    have counts : (decoder.stopping failFast).Numbers progress before := numbers
    exact (counts.batch rows).1
  | feature row => rfl
  | features failFast rows => rfl
  | reset => rfl

/-- After a call the next event is numbered by the rows of the call as well, or from
the start. -/
theorem Numbers.perform (numbers : decoder.Numbers progress before) (call : Call) :
    decoder.Numbers (decoder.perform progress call).2 (decoder.eventRowsSince before [call]) := by
  have still (later : Progress) (same : later.sequence = progress.sequence) :
      decoder.Numbers later (before ++ []) := by
    rw [Numbers, same, List.append_nil]
    exact numbers
  cases call with
  | event row => exact (numbers.single row).2
  | events failFast rows =>
    have counts : (decoder.stopping failFast).Numbers progress before := numbers
    exact (counts.batch rows).2
  | feature row => exact still _ (sequence_decode_feature decoder progress row)
  | features failFast rows =>
    exact still _ (sequence_decodeAll_feature (decoder.stopping failFast) progress rows)
  | reset => exact SessionSequence.counts_start

/-- After any calls the next event is numbered by the rows of all of them. -/
theorem Numbers.after (numbers : decoder.Numbers progress before) (calls : List Call) :
    decoder.Numbers (decoder.after progress calls) (decoder.eventRowsSince before calls) := by
  induction calls generalizing progress before with
  | nil => exact numbers
  | cons call rest inductionHypothesis => exact inductionHypothesis (numbers.perform call)

/-- A call gives back the events that it decoded, unless it gives an error. A call for one
row is refused for its width; a call for a batch is refused when it stops at a row. -/
theorem events?_perform (decoder : Decoder) (progress : Progress) (call : Call) :
    (decoder.perform progress call).1.events? =
      if decoder.refuses call then none else some (decoder.decoded progress call) := by
  cases call with
  | event row =>
    have given := isSome_decode decoder Event.format progress row
    simp only [refuses, decoded, Decoder.perform, Reply.events?, Prod.map, ← given]
    cases (decoder.decode Event.format progress row).1.toOption <;> rfl
  | feature row =>
    have given := isSome_decode decoder Feature.format progress row
    simp only [refuses, decoded, Decoder.perform, Reply.events?, Prod.map, ← given]
    cases (decoder.decode Feature.format progress row).1.toOption <;> rfl
  | events failFast rows =>
    exact records_decodeAll (decoder.stopping failFast) Event.format progress rows
  | features failFast rows =>
    have given := congrArg (Option.map fun _ => ([] : List Event))
      (records_decodeAll (decoder.stopping failFast) Feature.format progress rows)
    rw [Option.map_map] at given
    refine given.trans ?_
    rw [apply_ite (Option.map fun _ => ([] : List Event))]
    rfl
  | reset => rfl

/-- After any calls, the events that a call decodes take the indices that their rows give
them, and the others are numbered by the unbroken run of their session among the events
decoded since the last start; and the call gives these events back unless it gives an error.

Proof: what the decoder keeps between calls is the last session and a counter, and this is a
summary of the rows since the last start: the counter is the length of the run of that
session at their end. Every call keeps it so, by induction on its rows, and calls are taken
one after another. -/
theorem events_numbered_by_runs (decoder : Decoder) (enabled : Bool) (calls : List Call)
    (call : Call) :
    let before := decoder.eventRowsSince [] calls
    let progress := decoder.after (.start enabled) calls
    let events := decoder.numberedAll before (decoder.eventRows call)
    decoder.decoded progress call = events ∧
      (decoder.perform progress call).1.events? =
        if decoder.refuses call then none else some events := by
  intro before progress events
  have fresh : decoder.Numbers (.start enabled) [] := SessionSequence.counts_start
  have made : decoder.decoded progress call = events := (fresh.after calls).decoded_eq call
  exact ⟨made, made ▸ events?_perform decoder progress call⟩

end

end Decoder

end EventSieve
