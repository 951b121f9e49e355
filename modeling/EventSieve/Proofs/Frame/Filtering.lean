import EventSieve.Proofs.Clause.MaskAgreement

/-!
# Building and filtering frames

A frame starts without rows, gets rows, and is filtered, in any order. None of this
changes its columns, so a row fits into it now exactly if it fitted at the start, and a
history of a frame can be told without the rows that were refused.

A clause looks for the columns of its masks before it looks at any row. It fails with the
first mask whose column is missing, and otherwise says of every row whether each mask
accepts the cell under its column. Since filtering leaves the columns alone, a second
clause finds its columns where it would have found them before: filtering by two clauses
is filtering by the masks of both, and the laws of conjunction are laws of filtering.
-/

namespace EventSieve

namespace Frame

/-- Frames with the same columns and the same rows are the same. -/
theorem eq_of_rows {left right : Frame} (columns : left.columns = right.columns)
    (rows : left.rows = right.rows) : left = right := by
  cases left
  cases right
  cases columns
  cases rows
  rfl

/-- The rows of a frame whose flags are set, in their order, under the same columns. -/
def select (frame : Frame) (flags : List Bool) : Frame where
  columns := frame.columns
  rows := ((frame.rows.zip flags).filter (·.2)).map (·.1)
  rectangular := by
    intro row member
    obtain ⟨flagged, kept, rfl⟩ := List.mem_map.mp member
    exact frame.rectangular _ (List.of_mem_zip (List.mem_filter.mp kept).1).1

/-- Keeping the rows that pass a test is selecting them by the outcomes of the test. -/
theorem select_map (frame : Frame) (test : Row → Bool) :
    frame.select (frame.rows.map test) = frame.keep test := by
  apply eq_of_rows
  · rfl
  simp only [select, keep]
  induction frame.rows with
  | nil => rfl
  | cons row rest inductionHypothesis =>
    rw [List.map_cons, List.zip_cons_cons]
    cases passes : test row with
    | true => simp [passes, inductionHypothesis]
    | false => simp [passes, inductionHypothesis]

/-- Keeping rows by one test and then by another is keeping those that pass both. -/
theorem keep_keep (frame : Frame) (first second : Row → Bool) :
    (frame.keep first).keep second = frame.keep fun row => first row && second row := by
  apply eq_of_rows
  · rfl
  · simp only [keep, List.filter_filter, Bool.and_comm]

end Frame

namespace MaskClause

/-- A row passes the masks of two clauses when it passes those of each. -/
theorem holds_append (first second : List (Nat × Mask)) :
    holds (first ++ second) = fun row => holds first row && holds second row :=
  funext fun _ => List.all_append

/-- The positions of masks depend on the columns of a frame alone. -/
theorem locate_congr {frame other : Frame} (columns : other.columns = frame.columns)
    (clause : MaskClause) : clause.locate other = clause.locate frame := by
  simp only [locate, Frame.columnIndex?, columns]

/-- The masks of two clauses are located one clause after the other. -/
theorem locate_append (first second : MaskClause) (frame : Frame) :
    locate (first ++ second) frame = (do
      let front ← locate first frame
      let back ← locate second frame
      pure (front ++ back)) :=
  List.mapM_append

/-- Masks of two clauses that are located stand one behind the other. -/
theorem locate_append_of_ok {first second : MaskClause} {frame : Frame}
    {front back : List (Nat × Mask)} (earlier : first.locate frame = .ok front)
    (later : second.locate frame = .ok back) :
    locate (first ++ second) frame = .ok (front ++ back) := by
  rw [locate_append, earlier, later]
  rfl

/-- Masks are located unless a column is missing; then the first mask whose column is
missing gives the error. The masks are located one after the other, so those in front of it
all have their columns, and those behind it are not looked at. -/
theorem locate_eq_error_iff {clause : MaskClause} {frame : Frame} {error : FilterError} :
    clause.locate frame = .error error ↔
      ∃ mask, clause.find? (fun mask => mask.column ∉ frame.columns) = some mask ∧
        error = .missingFrameColumn mask.column := by
  cases found : clause.find? fun mask => mask.column ∉ frame.columns with
  | none =>
    have present : ∀ mask ∈ clause, mask.column ∈ frame.columns := by
      simpa using List.find?_eq_none.mp found
    obtain ⟨located, made, -⟩ := locate_eq_ok present
    simp [made]
  | some mask =>
    obtain ⟨missing, front, back, rfl, earlier⟩ := List.find?_eq_some_iff_append.mp found
    have absent : frame.columnIndex? mask.column = none := by
      rw [Frame.columnIndex?, List.findIdx?_eq_none_iff]
      intro column member
      have other : column ≠ mask.column := by
        rintro rfl
        simp [member] at missing
      simpa using other
    have failed : locate (front ++ mask :: back) frame = .error (.missingFrameColumn mask.column) := by
      apply mapM_eq_error
      · intro other member
        have present : other.column ∈ frame.columns := by simpa using earlier other member
        obtain ⟨index, stands⟩ := Frame.exists_columnIndex? present
        exact ⟨(index, other), by rw [stands]⟩
      · rw [absent]
    simp [failed, eq_comm]

/-- A clause gives the verdicts of its located masks. -/
theorem evaluate_eq_map (clause : MaskClause) (frame : Frame) :
    clause.evaluate frame =
      (clause.locate frame).map fun located => frame.rows.map (holds located) := by
  rw [evaluate]
  cases clause.locate frame <;> rfl

/-- Evaluating a clause fails exactly when the column of a mask is missing, and names the
first such mask. -/
theorem evaluate_eq_error_iff {clause : MaskClause} {frame : Frame} {error : FilterError} :
    clause.evaluate frame = .error error ↔
      ∃ mask, clause.find? (fun mask => mask.column ∉ frame.columns) = some mask ∧
        error = .missingFrameColumn mask.column := by
  rw [← locate_eq_error_iff, evaluate_eq_map]
  cases clause.locate frame <;> simp [Except.map]

/-- Whether a flag for a row says that each mask of a clause accepts the cell of the row
under its column, and every mask has a cell there. -/
def Flags (clause : MaskClause) (frame : Frame) (row : Row) (flag : Bool) : Prop :=
  (∀ mask ∈ clause, ∃ cell, frame.cell? row mask.column = some cell) ∧
    (flag = true ↔ ∀ mask ∈ clause, ∀ cell, frame.cell? row mask.column = some cell →
      mask.accepts cell = true)

/-- A clause whose columns are there gives every row its flag. Locating is done once for all
rows. Every row of the frame is as wide as its columns, so the cell of each mask is there
and the flag can be told by the cells alone. -/
theorem exists_flags {clause : MaskClause} {frame : Frame}
    (present : ∀ mask ∈ clause, mask.column ∈ frame.columns) :
    ∃ flags, clause.evaluate frame = .ok flags ∧
      List.Forall₂ (clause.Flags frame) frame.rows flags := by
  obtain ⟨located, made, passes⟩ := locate_eq_ok present
  refine ⟨frame.rows.map (holds located), by rw [evaluate_eq_map, made]; rfl, ?_⟩
  rw [List.forall₂_map_right_iff]
  apply List.forall₂_same.mpr
  intro row member
  have cells : ∀ mask ∈ clause, ∃ cell, frame.cell? row mask.column = some cell :=
    fun mask inside => Frame.exists_cell? member (present mask inside)
  refine ⟨cells, (passes row).trans ?_⟩
  constructor
  · intro all mask inside cell known
    obtain ⟨other, found, accepted⟩ := all mask inside
    cases known.symm.trans found
    exact accepted
  · intro all mask inside
    obtain ⟨cell, known⟩ := cells mask inside
    exact ⟨cell, known, all mask inside cell known⟩

end MaskClause

namespace Frame

variable {frame kept : Frame} {clause : MaskClause} {located : List (Nat × Mask)}

/-- Filtering keeps the rows that pass the located masks. -/
theorem filter_of_located (made : clause.locate frame = .ok located) :
    frame.filter clause = .ok (frame.keep (MaskClause.holds located)) := by
  rw [filter, made]
  rfl

/-- Filtering fails when the masks are not located. -/
theorem filter_of_missing {error : FilterError} (missing : clause.locate frame = .error error) :
    frame.filter clause = .error error := by
  rw [filter, missing]
  rfl

/-- Filtering selects the rows by the flags of the clause, and fails when there are
none. -/
theorem filter_eq_select (frame : Frame) (clause : MaskClause) :
    frame.filter clause = (clause.evaluate frame).map frame.select := by
  rw [MaskClause.evaluate_eq_map]
  cases made : clause.locate frame with
  | error error => exact filter_of_missing made
  | ok located =>
    rw [filter_of_located made, ← select_map]
    rfl

/-- Filtering leaves the columns alone. -/
theorem columns_of_filter (filtered : frame.filter clause = .ok kept) :
    kept.columns = frame.columns := by
  cases made : clause.locate frame with
  | error error => cases filtered.symm.trans (filter_of_missing made)
  | ok located =>
    cases filtered.symm.trans (filter_of_located made)
    rfl

/-- Filtering by one clause and then by another is filtering by the masks of both; it fails
with what is missing first. Masks are located by the names of columns, and filtering keeps
these, so the second clause is located in what is left exactly as it would be in the whole
frame. -/
theorem filter_filter (frame : Frame) (first second : MaskClause) :
    (frame.filter first >>= fun kept => kept.filter second) = frame.filter (first ++ second) := by
  cases earlier : first.locate frame with
  | error error =>
    have both : MaskClause.locate (first ++ second) frame = .error error := by
      rw [MaskClause.locate_append, earlier]
      rfl
    rw [filter_of_missing earlier, filter_of_missing both]
    rfl
  | ok front =>
    rw [filter_of_located earlier]
    change (frame.keep (MaskClause.holds front)).filter second = _
    have same : second.locate (frame.keep (MaskClause.holds front)) = second.locate frame :=
      MaskClause.locate_congr rfl second
    cases later : second.locate frame with
    | error error =>
      have both : MaskClause.locate (first ++ second) frame = .error error := by
        rw [MaskClause.locate_append, earlier, later]
        rfl
      rw [filter_of_missing (same.trans later), filter_of_missing both]
    | ok back =>
      have both := MaskClause.locate_append_of_ok earlier later
      rw [filter_of_located (same.trans later), filter_of_located both, keep_keep,
        MaskClause.holds_append]

/-- The order of two clauses does not matter when all columns are there. -/
theorem filter_append_comm {first second : MaskClause}
    (earlier : ∀ mask ∈ first, mask.column ∈ frame.columns)
    (later : ∀ mask ∈ second, mask.column ∈ frame.columns) :
    ∃ kept, frame.filter (first ++ second) = .ok kept ∧
      frame.filter (second ++ first) = .ok kept := by
  obtain ⟨front, madeFront, -⟩ := MaskClause.locate_eq_ok earlier
  obtain ⟨back, madeBack, -⟩ := MaskClause.locate_eq_ok later
  refine ⟨_, filter_of_located (MaskClause.locate_append_of_ok madeFront madeBack), ?_⟩
  rw [filter_of_located (MaskClause.locate_append_of_ok madeBack madeFront)]
  simp only [MaskClause.holds_append, Bool.and_comm]

/-- Filtering twice by one clause is filtering once. -/
theorem filter_twice (frame : Frame) (clause : MaskClause) :
    (frame.filter clause >>= fun kept => kept.filter clause) = frame.filter clause := by
  rw [filter_filter]
  cases made : clause.locate frame with
  | error error =>
    have both : MaskClause.locate (clause ++ clause) frame = .error error := by
      rw [MaskClause.locate_append, made]
      rfl
    rw [filter_of_missing made, filter_of_missing both]
  | ok located =>
    rw [filter_of_located made, filter_of_located (MaskClause.locate_append_of_ok made made)]
    simp only [MaskClause.holds_append, Bool.and_self]

end Frame

/-- What is done to a frame: a row is added, rows are added together, or rows are
filtered. -/
inductive Frame.Change where
  | push (row : Row)
  | withRows (rows : List Row)
  | filter (clause : MaskClause)

/-- Whether a change is not about a single row of another width. -/
def Frame.Change.fits (width : Nat) : Change → Bool
  | .push row => row.length = width
  | .withRows _ | .filter _ => true

namespace Frame

/-- The frame that a change makes, unless it is refused. -/
def changed? (frame : Frame) : Change → Option Frame
  | .push row => (frame.push row).toOption
  | .withRows rows => (frame.withRows rows).toOption
  | .filter clause => (frame.filter clause).toOption

/-- The frame after a change. A change that is refused leaves it as it was. -/
def after (frame : Frame) (change : Change) : Frame :=
  (frame.changed? change).getD frame

/-- The frame after changes that are made one after the other. -/
def afterAll (frame : Frame) (changes : List Change) : Frame :=
  changes.foldl after frame

/-- A row of another width is refused, and the error has both widths and the number of
rows before it. -/
theorem push_of_misfit {frame : Frame} {row : Row} (other : row.length ≠ frame.columns.length) :
    frame.push row = .error ⟨"frame", frame.size, frame.columns.length, row.length⟩ :=
  dif_neg other

/-- A row that is refused leaves the frame as it was. -/
theorem after_push_of_misfit {frame : Frame} {row : Row}
    (other : row.length ≠ frame.columns.length) : frame.after (.push row) = frame := by
  simp only [after, changed?, push_of_misfit other]
  rfl

/-- A change that is made leaves the columns alone. Rows are put behind others or taken out,
and nothing else is ever changed. -/
theorem columns_of_changed? {frame later : Frame} {change : Change}
    (made : frame.changed? change = some later) : later.columns = frame.columns := by
  cases change with
  | push row =>
    cases pushed : frame.push row with
    | error error => simp [changed?, pushed, Except.toOption] at made
    | ok longer =>
      simp only [changed?, pushed, Except.toOption, Option.some.injEq] at made
      exact made ▸ (push_rows pushed).2
  | withRows rows =>
    cases found : misfit? frame.columns.length frame.size rows with
    | some misfit => simp [changed?, withRows_of_some found, Except.toOption] at made
    | none =>
      simp only [changed?, withRows_of_none found, Except.toOption, Option.some.injEq] at made
      exact made ▸ rfl
  | filter clause =>
    cases filtered : frame.filter clause with
    | error error => simp [changed?, filtered, Except.toOption] at made
    | ok kept =>
      simp only [changed?, filtered, Except.toOption, Option.some.injEq] at made
      exact made ▸ columns_of_filter filtered

/-- No change touches the columns. -/
theorem columns_after (frame : Frame) (change : Change) :
    (frame.after change).columns = frame.columns := by
  rw [after]
  cases made : frame.changed? change with
  | none => rfl
  | some later => exact columns_of_changed? made

/-- A frame keeps its columns whatever is done to it. -/
theorem columns_afterAll (frame : Frame) (changes : List Change) :
    (frame.afterAll changes).columns = frame.columns := by
  induction changes generalizing frame with
  | nil => rfl
  | cons change rest inductionHypothesis =>
    exact (inductionHypothesis (frame.after change)).trans (frame.columns_after change)

/-- A history without the rows that were refused ends with the same frame. -/
theorem afterAll_filter_fits (frame : Frame) (changes : List Change) :
    frame.afterAll (changes.filter (Change.fits frame.columns.length)) = frame.afterAll changes := by
  induction changes generalizing frame with
  | nil => rfl
  | cons change rest inductionHypothesis =>
    have later := inductionHypothesis (frame.after change)
    rw [columns_after] at later
    cases fit : change.fits frame.columns.length with
    | true =>
      rw [List.filter_cons_of_pos fit]
      exact later
    | false =>
      rw [List.filter_cons_of_neg (Bool.eq_false_iff.mp fit)]
      cases change with
      | push row =>
        have other : row.length ≠ frame.columns.length := by simpa [Change.fits] using fit
        rw [after_push_of_misfit other] at later
        rw [later, afterAll, afterAll, List.foldl_cons, after_push_of_misfit other]
      | withRows rows | filter clause => cases fit

end Frame

/-- A frame that is built in any way has the columns it started with, and every row has one
cell for each of them. A row of another width is refused, leaves the frame as it is, and
might as well not have been offered.

A clause fails on such a frame exactly when the column of a mask is missing, and names the
first such mask. Otherwise it flags the rows whose cells all its masks accept, and filtering
keeps the flagged rows in their order. Filtering by two clauses is filtering by the masks of
both, in either order, and filtering again changes nothing.

Proof: a change keeps the columns, and the type of frames carries that rows are as wide as
these, so what is to be shown of the history is one step and an induction on the changes. A
clause locates all of its masks before it looks at a row, so it fails as a whole or flags
every row. Filters are selections by the conjunction of their masks, which does not depend
on order or repetition. -/
theorem frames_stay_rectangular_filters_compose (columns : List String)
    (changes : List Frame.Change) (first second : MaskClause) :
    let frame := (Frame.ofColumns columns).afterAll changes
    (frame.columns = columns ∧ ∀ row ∈ frame.rows, row.length = columns.length) ∧
    (∀ row : Row, row.length ≠ columns.length →
      frame.push row = .error ⟨"frame", frame.size, columns.length, row.length⟩ ∧
        frame.after (.push row) = frame) ∧
    (Frame.ofColumns columns).afterAll (changes.filter (Frame.Change.fits columns.length)) = frame ∧
    (∀ error, first.evaluate frame = .error error ↔
      ∃ mask, first.find? (fun mask => mask.column ∉ columns) = some mask ∧
        error = .missingFrameColumn mask.column) ∧
    ((∀ mask ∈ first, mask.column ∈ columns) →
      ∃ flags, first.evaluate frame = .ok flags ∧
        List.Forall₂ (first.Flags frame) frame.rows flags) ∧
    frame.filter first = (first.evaluate frame).map frame.select ∧
    ((∀ mask ∈ first, mask.column ∈ columns) → (∀ mask ∈ second, mask.column ∈ columns) →
      ∃ kept, frame.filter (first ++ second) = .ok kept ∧
        (frame.filter first >>= fun kept => kept.filter second) = .ok kept ∧
        (frame.filter second >>= fun kept => kept.filter first) = .ok kept) ∧
    (frame.filter first >>= fun kept => kept.filter first) = frame.filter first := by
  intro frame
  have same : frame.columns = columns := Frame.columns_afterAll _ changes
  refine ⟨⟨same, same ▸ frame.rectangular⟩, ?refused, ?history, ?fails, ?flags, ?selects,
    ?composes, frame.filter_twice first⟩
  case refused =>
    intro row other
    rw [← same] at other ⊢
    exact ⟨Frame.push_of_misfit other, Frame.after_push_of_misfit other⟩
  case history => exact (Frame.ofColumns columns).afterAll_filter_fits changes
  case fails =>
    intro error
    rw [MaskClause.evaluate_eq_error_iff, same]
  case flags =>
    intro present
    exact MaskClause.exists_flags (same.symm ▸ present)
  case selects => exact frame.filter_eq_select first
  case composes =>
    intro earlier later
    rw [← same] at earlier later
    obtain ⟨kept, both, reversed⟩ := Frame.filter_append_comm earlier later
    exact ⟨kept, both, (frame.filter_filter first second).trans both,
      (frame.filter_filter second first).trans reversed⟩

/-- Names and marks, where a second column has the name of the first. -/
def markColumns : List String := ["name", "mark", "name"]

/-- Four rows are offered, of which the second is too short. -/
def markChanges : List Frame.Change :=
  [.push [.text "x", .integer 1, .null], .push [.text "y"],
    .withRows [[.text "x", .null, .integer 2], [.null, .integer 3, .text "z"]]]

/-- A mask that no empty cell passes. -/
def Mask.filled (column : String) : Mask := ⟨column, fun cell => !cell.isNull⟩

/-- The first row alone has a name and a mark, whichever is asked for first. A row without
cells is refused, and a clause on columns that are missing names the first of them. -/
theorem frames_stay_rectangular_filters_compose_marks :
    (∃ kept, ((Frame.ofColumns markColumns).afterAll markChanges).filter [.filled "name"] >>=
        (fun kept => kept.filter [.filled "mark"]) = .ok kept ∧
      ((Frame.ofColumns markColumns).afterAll markChanges).filter [.filled "mark"] >>=
        (fun kept => kept.filter [.filled "name"]) = .ok kept ∧
      kept.rows = [[.text "x", .integer 1, .null]]) ∧
    ((Frame.ofColumns markColumns).afterAll markChanges).push [] = .error ⟨"frame", 3, 3, 0⟩ ∧
    MaskClause.evaluate [.filled "mark", .filled "place", .filled "time"]
        ((Frame.ofColumns markColumns).afterAll markChanges) =
      .error (.missingFrameColumn "place") := by
  obtain ⟨-, refused, -, -, -, -, composes, -⟩ :=
    frames_stay_rectangular_filters_compose markColumns markChanges [.filled "name"]
      [.filled "mark"]
  obtain ⟨-, -, -, fails, -⟩ := frames_stay_rectangular_filters_compose markColumns markChanges
    [.filled "mark", .filled "place", .filled "time"] []
  refine ⟨?_, (refused [] (by decide)).1, (fails _).mpr ⟨.filled "place", rfl, rfl⟩⟩
  obtain ⟨kept, both, earlier, later⟩ := composes (by decide) (by decide)
  refine ⟨kept, earlier, later, ?_⟩
  cases both
  rfl

end EventSieve
