import EventSieve.Proofs.Record.Writing

/-!
# Columns that a field does not refer to

Writing a field changes no column but those of its locator: one column, the columns of
a list, or columns that a dictionary gives to keys. It never changes the width of a row.
So a field that shares no column with the others decides alone what its columns hold
when a record is written.
-/

namespace EventSieve

/-- Steps that leave a column alone leave it as it was when all of them are made. -/
theorem Row.getElem?_foldl {Entry : Type} {step : Row → Entry → Row} {entries : List Entry}
    {position : Nat} (apart : ∀ entry ∈ entries, ∀ row : Row,
      (step row entry)[position]? = row[position]?) (row : Row) :
    (entries.foldl step row)[position]? = row[position]? := by
  induction entries generalizing row with
  | nil => rfl
  | cons entry rest inductionHypothesis =>
    obtain ⟨own, later⟩ := List.forall_mem_cons.mp apart
    rw [List.foldl_cons, inductionHypothesis later, own]

/-- Steps that keep the width of a row keep it when all of them are made. -/
theorem Row.length_foldl {Entry : Type} {step : Row → Entry → Row}
    (keeps : ∀ (entry : Entry) (row : Row), (step row entry).length = row.length)
    (entries : List Entry) (row : Row) : (entries.foldl step row).length = row.length := by
  induction entries generalizing row with
  | nil => rfl
  | cons entry rest inductionHypothesis =>
    rw [List.foldl_cons, inductionHypothesis, keeps]

namespace Encoder

/-- A value that is written changes its own column only. -/
theorem getElem?_write_of_ne {index position : Nat} (different : position ≠ index)
    (types : List ColumnType) (row : Row) (value : Cell) :
    (write types row index value)[position]? = row[position]? := by
  rw [write_eq_set, List.getElem?_set_ne (Ne.symm different)]

/-- A key is given one of the columns of its dictionary. -/
theorem mem_of_columnOf? {pairs : List (String × Nat)} {key : String} {index : Nat}
    (found : columnOf? pairs key = some index) : index ∈ pairs.map (·.2) := by
  obtain ⟨pair, chosen, rfl⟩ := Option.map_eq_some_iff.mp found
  exact List.mem_map_of_mem (List.mem_of_find?_eq_some chosen)

/-- The column for what is left over is one of the columns of its dictionary. -/
theorem mem_of_freeJsonColumn? {types : List ColumnType} {pairs : List (String × Nat)}
    {members : Json.Members} {index : Nat}
    (found : freeJsonColumn? types pairs members = some index) : index ∈ pairs.map (·.2) := by
  obtain ⟨pair, chosen, rfl⟩ := Option.map_eq_some_iff.mp found
  exact List.mem_map_of_mem (List.mem_of_find?_eq_some chosen)

/-- Parts of a text are written to the columns of their list only. -/
theorem getElem?_writeList_of_not_mem {indices : List Nat} {position : Nat}
    (apart : position ∉ indices) (table : Table) (row : Row) (value : Cell) :
    (writeList table row indices value)[position]? = row[position]? := by
  simp only [writeList]
  split
  · rfl
  · split
    · apply Row.getElem?_foldl
      rintro ⟨index, part⟩ inside before
      apply getElem?_write_of_ne
      rintro rfl
      exact apart (List.of_mem_zip inside).1
    · rfl

/-- Members of an object are written to the columns of their dictionary only. A member goes
into the column of its key, and members that are left over into a column of the dictionary
that is free. -/
theorem getElem?_writeDict_of_not_mem {pairs : List (String × Nat)} {position : Nat}
    (apart : position ∉ pairs.map (·.2)) (table : Table) (row : Row) (value : Cell) :
    (writeDict table row pairs value)[position]? = row[position]? := by
  have other {index : Nat} (inside : index ∈ pairs.map (·.2)) : position ≠ index := by
    rintro rfl
    exact apart inside
  cases object : value.members? with
  | none => simp only [writeDict, object]
  | some members =>
    simp only [writeDict, object]
    split
    case' isFalse =>
      cases free : freeJsonColumn? table.types pairs members
      case' some index =>
        dsimp only
        rw [getElem?_write_of_ne (other (mem_of_freeJsonColumn? free))]
    -- Whatever is done with the members that are left over, the named ones come first.
    all_goals
      apply Row.getElem?_foldl
      rintro ⟨key, item⟩ _ before
      dsimp only
      cases found : columnOf? pairs key with
      | none => rfl
      | some index => exact getElem?_write_of_ne (other (mem_of_columnOf? found)) _ _ _

/-- Writing a field leaves the columns alone that its locator does not mention. -/
theorem getElem?_writeField_of_not_mem {table : Table} {field : String} {position : Nat}
    (apart : position ∉ (table.locate field).indices) (row : Row) (value : Cell) :
    (writeField table row field value)[position]? = row[position]? := by
  rw [writeField]
  cases place : table.locate field with
  | absent => rfl
  | single index =>
    rw [place, Locator.indices, List.mem_singleton] at apart
    exact getElem?_write_of_ne apart _ _ _
  | list indices =>
    rw [place] at apart
    exact getElem?_writeList_of_not_mem apart _ _ _
  | dict pairs =>
    rw [place] at apart
    exact getElem?_writeDict_of_not_mem apart _ _ _

/-- Writing a field keeps the width of a row. Whatever the locator is, cells are only ever
replaced. This makes the width of an encoded row that of its table. -/
theorem length_writeField (table : Table) (row : Row) (field : String) (value : Cell) :
    (writeField table row field value).length = row.length := by
  rw [writeField]
  cases table.locate field with
  | absent => rfl
  | single index => exact length_write _ _ _ _
  | list indices =>
    simp only [writeList]
    split
    · rfl
    · split
      · exact Row.length_foldl (fun _ _ => length_write _ _ _ _) _ _
      · rfl
  | dict pairs =>
    cases object : value.members? with
    | none => simp only [writeDict, object]
    | some members =>
      simp only [writeDict, object]
      split
      case' isFalse =>
        cases freeJsonColumn? table.types pairs members
        case' some index =>
          dsimp only
          rw [length_write]
      all_goals
        apply Row.length_foldl
        rintro ⟨key, item⟩ before
        dsimp only
        cases columnOf? pairs key with
        | none => rfl
        | some index => exact length_write _ _ _ _

/-- Values that are written to different columns are all kept. -/
theorem getElem?_foldl_write {types : List ColumnType} {entries : List (Nat × Cell)}
    (distinct : (entries.map (·.1)).Nodup) {entry : Nat × Cell} (member : entry ∈ entries)
    {row : Row} (inside : entry.1 < row.length) :
    (entries.foldl (fun row entry => write types row entry.1 entry.2) row)[entry.1]? =
      some (stored types entry.1 entry.2) := by
  induction entries generalizing row with
  | nil => cases member
  | cons first rest inductionHypothesis =>
    obtain ⟨apart, others⟩ := List.nodup_cons.mp distinct
    rw [List.foldl_cons]
    rcases List.mem_cons.mp member with rfl | later
    · rw [Row.getElem?_foldl, write_eq_set, List.getElem?_set_self inside]
      intro other present before
      apply getElem?_write_of_ne
      intro same
      exact apart (List.mem_map.mpr ⟨other, present, same.symm⟩)
    · apply inductionHypothesis others later
      rwa [length_write]

end Encoder

/-- A field that shares no column with the others of its record is alone in writing its
columns, on a row that holds nothing there. The fields are split at this one. Those in front
leave the nulls where they are, and those behind leave what it wrote. -/
theorem RecordFormat.getElem?_encode {Kind : Type} {format : RecordFormat Kind} {table : Table}
    {field : String} (once : format.fields.Nodup) (member : field ∈ format.fields) {indices : List Nat}
    (apart : ∀ other ∈ format.fields, other ≠ field → ∀ index ∈ indices,
      index ∉ (table.locate other).indices) (record : Kind) :
    ∃ row : Row, row.length = table.columns.length ∧
      (∀ index ∈ indices, index < table.columns.length → row[index]? = some .null) ∧
      ∀ index ∈ indices, (format.encode table record)[index]? =
        (Encoder.writeField table row field (format.fieldValue record field))[index]? := by
  obtain ⟨front, back, split⟩ := List.append_of_mem member
  have unlike : ∀ other ∈ front ++ back, other ∈ format.fields ∧ other ≠ field := by
    intro other among
    rw [split] at once ⊢
    have later := List.nodup_middle.mp once
    refine ⟨?_, ?_⟩
    · rcases List.mem_append.mp among with before | after
      · exact List.mem_append_left _ before
      · exact List.mem_append_right _ (List.mem_cons_of_mem _ after)
    · rintro rfl
      exact (List.nodup_cons.mp later).1 among
  have leaves {others : List String} (among : ∀ other ∈ others, other ∈ front ++ back) {index : Nat}
      (own : index ∈ indices) (row : Row) :
      (others.foldl (fun row other =>
        Encoder.writeField table row other (format.fieldValue record other)) row)[index]? =
        row[index]? := by
    apply Row.getElem?_foldl
    intro other present before
    obtain ⟨inside, different⟩ := unlike other (among other present)
    exact Encoder.getElem?_writeField_of_not_mem (apart other inside different index own) _ _
  refine ⟨front.foldl (fun row other =>
    Encoder.writeField table row other (format.fieldValue record other))
      (List.replicate table.columns.length .null), ?_, ?_, ?_⟩
  · rw [Row.length_foldl (fun _ _ => Encoder.length_writeField _ _ _ _), List.length_replicate]
  · intro index own inside
    rw [leaves (fun _ => List.mem_append_left _) own, List.getElem?_replicate, if_pos inside]
  · intro index own
    rw [encode, split, List.foldl_append, List.foldl_cons,
      leaves (fun _ => List.mem_append_right _) own]

end EventSieve
