import EventSieve.Proofs.Traversal
import EventSieve.Record.Reader

/-!
# Reading rows whose cells convert

When the cells behind a locator convert, nothing has to be repaired, and the value
that a reader finds is made of the converted cells: one of them, the texts of
several cells as they are, or the object of several.
-/

namespace EventSieve

/-- The cell of a column in the declared type; null when there is none. -/
def Row.normalAt (row : Row) (types : List ColumnType) (index : Nat) : Cell :=
  match row.convertAt types index with
  | .ok converted => converted
  | .error _ => .null

/-- Whether the cell of a column converts to the declared type. -/
def Row.ConvertsAt (row : Row) (types : List ColumnType) (index : Nat) : Prop :=
  ∃ converted, row.convertAt types index = .ok converted

/-- A cell that converts becomes its normal form. -/
theorem Row.ConvertsAt.eq {row : Row} {types : List ColumnType} {index : Nat}
    (converts : row.ConvertsAt types index) :
    row.convertAt types index = .ok (row.normalAt types index) := by
  obtain ⟨converted, made⟩ := converts
  rw [normalAt, made]

/-- A cell converts when there is one, its column has a type, and the type can take
it. -/
theorem Row.convertAt_eq_ok_iff {row : Row} {types : List ColumnType} {index : Nat}
    {converted : Cell} :
    row.convertAt types index = .ok converted ↔
      ∃ cell type, row[index]? = some cell ∧ types[index]? = some type ∧
        cell.convert type = .ok converted := by
  rw [convertAt]
  cases row[index]? with
  | none => simp
  | some cell =>
    cases types[index]? with
    | none => simp
    | some type => simp

/-- Steps without errors have the values of the steps. -/
theorem Noted.value_mapM {Source Target Failure Note : Type}
    {step : Source → ExceptT Failure (Noted Note) Target} {total : Source → Target}
    {sources : List Source}
    (steps : ∀ source ∈ sources, (step source).run.value = .ok (total source)) :
    (sources.mapM step).run.value = .ok (sources.map total) := by
  induction sources with
  | nil => rfl
  | cons source rest inductionHypothesis =>
    obtain ⟨own, later⟩ := List.forall_mem_cons.mp steps
    have others := inductionHypothesis later
    rw [List.mapM_cons, List.map_cons]
    simp only [ExceptT.run_bind, value_bind, own, others]
    rfl

namespace RowReader

/-- A cell that converts needs no repair. -/
theorem value_repairedAt {reader : RowReader} {index : Nat}
    (converts : reader.row.ConvertsAt reader.table.types index) (field : String) :
    (reader.repairedAt field index).run.value =
      .ok (reader.row.normalAt reader.table.types index) := by
  obtain ⟨cell, type, present, declared, made⟩ := Row.convertAt_eq_ok_iff.mp converts.eq
  rw [Table.types, List.getElem?_map, Option.map_eq_some_iff] at declared
  obtain ⟨column, stands, rfl⟩ := declared
  rw [repairedAt, present, stands]
  simp only [made]
  rfl

variable {reader : RowReader} {field : String}

/-- The value of a field on one column is its converted cell. -/
theorem value_resolve_single {index : Nat} (place : reader.table.locate field = .single index)
    (converts : reader.row.ConvertsAt reader.table.types index) :
    (reader.resolve field).value = reader.row.normalAt reader.table.types index := by
  rw [resolve, place]
  simp only [Locator.gather, Noted.value_bind, value_repairedAt converts]
  rfl

/-- The value of a field on a list of columns joins the texts of their cells. -/
theorem value_resolve_list {indices : List Nat} {texts : List String}
    (place : reader.table.locate field = .list indices)
    (found : indices.mapM reader.row.textAt = .ok texts) :
    (reader.resolve field).value = .text (reader.table.concatenator.intercalate texts) := by
  rw [resolve, place]
  have joined : (reader.join indices).run.value =
      .ok (reader.table.concatenator.intercalate texts) := by
    simp only [join, Row.join_eq, found]
    rfl
  simp only [Locator.gather, ExceptT.run_bind, Noted.value_bind, joined]
  rfl

/-- The value of a field on several keys is the object of the converted cells. -/
theorem value_resolve_dict {pairs : List (String × Nat)}
    (place : reader.table.locate field = .dict pairs)
    (converts : ∀ pair ∈ pairs, reader.row.ConvertsAt reader.table.types pair.2) :
    (reader.resolve field).value = .json (.object (Locator.compose (pairs.map fun pair =>
      (pair.1, reader.row.normalAt reader.table.types pair.2)))) := by
  rw [resolve, place]
  have gathered : (pairs.mapM fun pair : String × Nat => do
      let cell ← reader.repairedAt field pair.2
      pure (pair.1, cell)).run.value = Except.ok (pairs.map fun pair =>
        (pair.1, reader.row.normalAt reader.table.types pair.2)) := by
    apply Noted.value_mapM
    intro pair member
    simp only [ExceptT.run_bind, Noted.value_bind, value_repairedAt (converts pair member)]
    rfl
  simp only [Locator.gather, ExceptT.run_bind, Noted.value_bind, gathered]
  rfl

end RowReader

end EventSieve
