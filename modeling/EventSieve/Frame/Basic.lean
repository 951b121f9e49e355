import EventSieve.Cell.Row

/-!
# Frames

A frame holds rows under named columns, and every row has one cell for each
column. A row of another width is refused and leaves the frame as it is; in its
error the frame goes by the name `frame` and the row by the number of rows
before it.
-/

namespace EventSieve

/-- Rows of equal width under column names. -/
structure Frame where
  columns : List String
  rows : List Row
  rectangular : ∀ row ∈ rows, row.length = columns.length

namespace Frame

/-- The frame without rows. -/
def ofColumns (columns : List String) : Frame := ⟨columns, [], by simp⟩

/-- The number of rows. -/
def size (frame : Frame) : Nat :=
  frame.rows.length

/-- A frame with more rows of its width behind the others. -/
def extend (frame : Frame) (rows : List Row)
    (fit : ∀ row ∈ rows, row.length = frame.columns.length) : Frame where
  columns := frame.columns
  rows := frame.rows ++ rows
  rectangular := fun row member =>
    (List.mem_append.mp member).elim (frame.rectangular row) (fit row)

/-- Adds a row behind the others. -/
def push (frame : Frame) (row : Row) : Except RowLengthError Frame :=
  if fits : row.length = frame.columns.length then
    .ok (frame.extend [row] (List.forall_mem_singleton.mpr fits))
  else .error ⟨"frame", frame.size, frame.columns.length, row.length⟩

/-- The first row of another width than a given one, with the number of rows before it. -/
def misfit? (width : Nat) : Nat → List Row → Option (Nat × Row)
  | _, [] => none
  | before, row :: rest =>
    if row.length = width then misfit? width (before + 1) rest else some (before, row)

/-- Without a misfit all rows have the width. -/
theorem fit_of_misfit? {width before : Nat} {rows : List Row}
    (absent : misfit? width before rows = none) : ∀ row ∈ rows, row.length = width := by
  induction rows generalizing before with
  | nil => simp
  | cons first rest inductionHypothesis =>
    simp only [misfit?] at absent
    split at absent
    · rename_i fits
      exact List.forall_mem_cons.mpr ⟨fits, inductionHypothesis absent⟩
    · cases absent

/-- Adds rows behind the others; the first that does not fit refuses all of them. -/
def withRows (frame : Frame) (rows : List Row) : Except RowLengthError Frame :=
  match found : misfit? frame.columns.length frame.size rows with
  | none => .ok (frame.extend rows (fit_of_misfit? found))
  | some (before, row) => .error ⟨"frame", before, frame.columns.length, row.length⟩

/-- The position of the first column of a name. -/
def columnIndex? (frame : Frame) (name : String) : Option Nat :=
  frame.columns.findIdx? fun column => column = name

/-- The rows that pass a test, in their order, under the same columns. -/
def keep (frame : Frame) (test : Row → Bool) : Frame where
  columns := frame.columns
  rows := frame.rows.filter test
  rectangular := fun row member => frame.rectangular row (List.mem_filter.mp member).1

/-- A row that fits is the last one afterwards. -/
theorem push_rows {frame extended : Frame} {row : Row} (pushed : frame.push row = .ok extended) :
    extended.rows = frame.rows ++ [row] ∧ extended.columns = frame.columns := by
  simp only [push] at pushed
  split at pushed
  · cases pushed; exact ⟨rfl, rfl⟩
  · cases pushed

/-- Rows without a misfit are added. -/
theorem withRows_of_none {frame : Frame} {rows : List Row}
    (absent : misfit? frame.columns.length frame.size rows = none) :
    frame.withRows rows = .ok (frame.extend rows (fit_of_misfit? absent)) := by
  simp only [withRows]
  split
  · rfl
  · rename_i found
    cases absent.symm.trans found

/-- A misfit refuses the rows. -/
theorem withRows_of_some {frame : Frame} {rows : List Row} {before : Nat} {row : Row}
    (present : misfit? frame.columns.length frame.size rows = some (before, row)) :
    frame.withRows rows = .error ⟨"frame", before, frame.columns.length, row.length⟩ := by
  simp only [withRows]
  split
  · rename_i found
    cases present.symm.trans found
  · rename_i found
    cases present.symm.trans found
    rfl

/-- Adding rows together is adding one after the other, up to the first that does not fit.
The induction is on the rows: when the first one fits, whether and where the others misfit
is what it was with this row in front. -/
theorem withRows_eq_foldlM (frame : Frame) (rows : List Row) :
    frame.withRows rows = rows.foldlM push frame := by
  induction rows generalizing frame with
  | nil =>
    have unchanged : frame.extend [] (by simp) = frame := by simp [extend]
    rw [withRows_of_none rfl, unchanged]
    rfl
  | cons row rest inductionHypothesis =>
    by_cases fits : row.length = frame.columns.length
    · have pushed : frame.push row = .ok (frame.extend [row] (List.forall_mem_singleton.mpr fits)) :=
        dif_pos fits
      have later : misfit? frame.columns.length frame.size (row :: rest) =
          misfit? frame.columns.length (frame.extend [row] (List.forall_mem_singleton.mpr fits)).size
            rest := by
        simp [misfit?, fits, size, extend]
      have step : (row :: rest).foldlM push frame =
          (frame.extend [row] (List.forall_mem_singleton.mpr fits)).withRows rest := by
        rw [inductionHypothesis, List.foldlM_cons, pushed]
        rfl
      rw [step]
      cases found : misfit? frame.columns.length frame.size (row :: rest) with
      | none =>
        rw [withRows_of_none found, withRows_of_none (later.symm.trans found)]
        simp [extend]
      | some misfit => rw [withRows_of_some found, withRows_of_some (later.symm.trans found)]; rfl
    · have refused : frame.push row =
          .error ⟨"frame", frame.size, frame.columns.length, row.length⟩ := dif_neg fits
      have first : misfit? frame.columns.length frame.size (row :: rest) = some (frame.size, row) :=
        if_neg fits
      rw [withRows_of_some first, List.foldlM_cons, refused]
      rfl

/-- A row is refused exactly when its width is wrong. -/
theorem push_isError_iff (frame : Frame) (row : Row) :
    (∃ error, frame.push row = .error error) ↔ row.length ≠ frame.columns.length := by
  simp only [push]
  split
  · rename_i fits
    simp [fits]
  · rename_i unfit
    simp [unfit]

end Frame

end EventSieve
