import EventSieve.Cell.Convert
import EventSieve.Cell.Row
import EventSieve.Table.Locator

/-!
# From cells to a logical value

A locator turns the cells of a row into one logical value. One column gives its
converted cell. A list of columns gives the texts of the cells as they are,
joined by the concatenator. A dictionary converts its cells and builds an object:
a cell that converts to an object gives all its members, every other cell gives
one member under its own key, and a later value replaces an earlier one in its
place. Without a column the value is the fallback.

How a cell is converted, and what happens when it cannot be, is left to the
monad. In the strict reading the first cell that fails decides.
-/

namespace EventSieve

namespace Locator

/-- What one converted cell contributes to an object. -/
def contribution (key : String) (cell : Cell) : Json.Members :=
  match cell.members? with
  | some inner => inner
  | none => [(key, cell.toJson)]

/-- The object that converted cells make up, in order. -/
def compose (cells : List (String × Cell)) : Json.Members :=
  Json.ofPairs (cells.flatMap fun cell => contribution cell.1 cell.2)

/-- The logical value that a locator gives, with the ways to convert the cell of
a column and to join the texts of several. -/
def gather {m : Type → Type} [Monad m] (convert : Nat → m Cell) (join : List Nat → m String)
    (fallback : Cell) : Locator → m Cell
  | .absent => pure fallback
  | .single index => convert index
  | .list indices => do
    let text ← join indices
    pure (.text text)
  | .dict pairs => do
    let cells ← pairs.mapM fun pair => do
      let cell ← convert pair.2
      pure (pair.1, cell)
    pure (.json (.object (compose cells)))

/-- One more cell puts its contribution behind the others. -/
theorem compose_concat (cells : List (String × Cell)) (key : String) (cell : Cell) :
    compose (cells ++ [(key, cell)]) = Json.putAll (compose cells) (contribution key cell) := by
  simp only [compose, List.flatMap_append, List.flatMap_singleton, Json.ofPairs_append]

end Locator

namespace Row

/-- The cell of a column converted to the declared type of the column. -/
def convertAt (row : Row) (types : List ColumnType) (index : Nat) : Except ConvertError Cell :=
  match row[index]?, types[index]? with
  | some cell, some type => cell.convert type
  | _, _ => .error (.missingCell index)

/-- The text of the cell of a column. -/
def textAt (row : Row) (index : Nat) : Except ConvertError String :=
  match row[index]? with
  | some cell => .ok cell.display
  | none => .error (.missingCell index)

/-- A text with the texts of the cells of columns behind it, each after a concatenator. -/
def joinAfter (row : Row) (concatenator front : String) : List Nat → Except ConvertError String
  | [] => .ok front
  | index :: rest =>
    match row.textAt index with
    | .ok text => joinAfter row concatenator (front ++ concatenator ++ text) rest
    | .error error => .error error

/-- The texts of the cells of several columns, joined by a concatenator. -/
def join (row : Row) (concatenator : String) : List Nat → Except ConvertError String
  | [] => .ok ""
  | index :: rest =>
    match row.textAt index with
    | .ok text => joinAfter row concatenator text rest
    | .error error => .error error

/-- The logical value that a locator gives, or the error of the first cell that
does not convert. -/
def resolve (row : Row) (types : List ColumnType) (concatenator : String) (fallback : Cell)
    (locator : Locator) : Except ConvertError Cell :=
  locator.gather (convertAt row types) (row.join concatenator) fallback

/-- Writing behind a text is joining it with the texts that come. -/
theorem joinAfter_eq (row : Row) (concatenator front : String) (indices : List Nat) :
    joinAfter row concatenator front indices =
      (indices.mapM row.textAt).map fun texts => String.intercalate concatenator (front :: texts) := by
  induction indices generalizing front with
  | nil => rfl
  | cons index rest inductionHypothesis =>
    rw [List.mapM_cons]
    cases found : row.textAt index with
    | error error => simp only [joinAfter, found]; rfl
    | ok text =>
      simp only [joinAfter, found, inductionHypothesis]
      cases rest.mapM row.textAt <;> rfl

/-- Joining takes the texts of all cells and puts the concatenator between them. -/
theorem join_eq (row : Row) (concatenator : String) (indices : List Nat) :
    row.join concatenator indices =
      (indices.mapM row.textAt).map (String.intercalate concatenator) := by
  cases indices with
  | nil => rfl
  | cons index rest =>
    rw [List.mapM_cons]
    cases found : row.textAt index with
    | error error => simp only [join, found]; rfl
    | ok text =>
      simp only [join, found, joinAfter_eq]
      cases rest.mapM row.textAt <;> rfl

/-- A field without columns is its fallback. -/
theorem resolve_absent (row : Row) (types : List ColumnType) (concatenator : String)
    (fallback : Cell) : resolve row types concatenator fallback .absent = .ok fallback := rfl

end Row

end EventSieve
