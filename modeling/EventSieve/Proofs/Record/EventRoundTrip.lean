import EventSieve.Proofs.Cell.Conversion
import EventSieve.Proofs.Record.Composition
import EventSieve.Proofs.Record.EventReading
import EventSieve.Proofs.Record.Resolution
import EventSieve.Record.Decoder

/-!
# Events go back to their rows

An event that was decoded from a row is encoded to the normal form of the row: the
columns that fields of events refer to hold their converted cells, and all others
are null. That asks something of the table and of the row.

The table gives every field a column of the type that suits it, or a list of
columns of texts, or a dictionary over columns of texts, integers, truth values and
at most one of JSON; and the texts of lists are joined by a single character.

All cells convert. Cells that null would be read for are not null, and texts do not
come from JSON. The texts of lists do not have the character that joins them. A
field of objects on one column finds an object there, and the JSON column of a
dictionary holds a list, or an object that can be told from the other members.

It does not matter whether two fields refer to one column, as both then write the
same cell to it.
-/

namespace EventSieve

/-- The columns that records of one kind refer to. -/
def RecordFormat.references {Kind : Type} (format : RecordFormat Kind) (table : Table) : List Nat :=
  format.fields.flatMap fun field => (table.locate field).indices

/-- The normal form of a row: the converted cells of the columns that records of one
kind refer to, and null in all others. -/
def RecordFormat.normalize {Kind : Type} (format : RecordFormat Kind) (table : Table) (row : Row) :
    Row :=
  (List.range table.columns.length).map fun index =>
    if index ∈ format.references table then row.normalAt table.types index else .null

/-- The normal form of a row puts the converted cells into a row of nulls. -/
theorem RecordFormat.normalize_eq {Kind : Type} (format : RecordFormat Kind) (table : Table)
    (row : Row) :
    format.normalize table row =
      Row.overwrite (List.replicate table.columns.length .null) (row.normalAt table.types)
        (format.references table) := by
  apply List.ext_getElem?
  intro position
  rw [Row.getElem?_overwrite, normalize, List.getElem?_map, List.length_replicate,
    List.getElem?_replicate]
  by_cases inside : position < table.columns.length
  · rw [List.getElem?_range inside]
    by_cases referred : position ∈ format.references table
    · simp [inside, referred]
    · simp [inside, referred]
  · simp [inside]

/-- A record whose fields give their columns their cells back is encoded to these cells.
Encoding goes through the fields and writes each of them into its columns. By induction on
the fields this writes the cells into all columns that are pointed at. -/
theorem RecordFormat.encode_eq {Kind : Type} {format : RecordFormat Kind} {table : Table}
    {record : Kind} {cellOf : Nat → Cell}
    (written : ∀ field ∈ format.fields, ∀ row : Row,
      Encoder.writeField table row field (format.fieldValue record field) =
        row.overwrite cellOf (table.locate field).indices) :
    format.encode table record =
      Row.overwrite (List.replicate table.columns.length .null) cellOf (format.references table) := by
  have fold (fields : List String) (start : Row)
      (steps : ∀ field ∈ fields, ∀ row : Row,
        Encoder.writeField table row field (format.fieldValue record field) =
          row.overwrite cellOf (table.locate field).indices) :
      fields.foldl (fun row field =>
          Encoder.writeField table row field (format.fieldValue record field)) start =
        start.overwrite cellOf (fields.flatMap fun field => (table.locate field).indices) := by
    induction fields generalizing start with
    | nil => rfl
    | cons field rest inductionHypothesis =>
      obtain ⟨own, later⟩ := List.forall_mem_cons.mp steps
      rw [List.foldl_cons, own, inductionHypothesis _ later, List.flatMap_cons,
        Row.overwrite_append]
  exact fold format.fields _ written

namespace Event

/-- The columns that an event source is written to hold its names. -/
def sourceType : ColumnType :=
  .enum [EventSource.game.name, EventSource.generated.name]

/-- The type of a single column that suits a kind of values. -/
def Content.columnType : Content → ColumnType
  | .text => .str
  | .instant => .datetime
  | .zone => .timezone
  | .integer => .int
  | .source => sourceType
  | .object => .json

/-- Whether a locator refers to columns that suit a kind of values. -/
def Content.Admits (content : Content) (types : List ColumnType) : Locator → Prop
  | .absent => True
  | .single index => types[index]? = some content.columnType
  | .list indices => content = .text ∧ ∀ index ∈ indices, types[index]? = some .str
  | .dict pairs => content = .object ∧ (pairs.map (·.1)).Nodup ∧
      (∀ pair ∈ pairs, ∃ type ∈ [ColumnType.str, .int, .bool, .json],
        types[pair.2]? = some type) ∧
      ∀ pair ∈ pairs, ∀ other ∈ pairs,
        types[pair.2]? = some .json → types[other.2]? = some .json → pair = other

end Event

/-- Whether a table can take events back. -/
structure Table.SuitsEvents (table : Table) : Prop where
  joined : ∃ separator, table.concatenator = String.singleton separator
  columns : ∀ field ∈ Event.fields, (Event.content field).Admits table.types (table.locate field)

/-- Whether the cell of a column converts, and does not come from JSON in a column of
texts. -/
def Row.IsPlainAt (row : Row) (types : List ColumnType) (index : Nat) : Prop :=
  row.ConvertsAt types index ∧
    (types[index]? = some .str → ∀ value, row[index]? ≠ some (.json value))

/-- Whether the cell of a column is a text or an integer without the text that joins
the parts of a list. -/
def Row.IsPartAt (row : Row) (concatenator : String) (index : Nat) : Prop :=
  ∃ cell, row[index]? = some cell ∧
    ((∃ text, cell = .text text) ∨ ∃ value, cell = .integer value) ∧
    ∀ character ∈ concatenator.toList, character ∉ cell.display.toList

/-- Whether the JSON of a column can be told from the members of a dictionary: a
list, or an object with members whose keys the dictionary does not have. -/
def Row.MergesAt (row : Row) (types : List ColumnType) (pairs : List (String × Nat)) (index : Nat) :
    Prop :=
  (∃ items, row.normalAt types index = .json (.list items)) ∨
    ∃ inner, row.normalAt types index = .json (.object inner) ∧ inner ≠ [] ∧
      (inner.map (·.1)).Nodup ∧ ∀ member ∈ inner, member.1 ∉ pairs.map (·.1)

/-- Whether the columns of a locator get the cells of a row back from the value that
the locator gives, and whether that is there when it is required. -/
def Row.Restores (row : Row) (table : Table) (required : Prop) : Locator → Prop
  | .absent => True
  | .single index => row.IsPlainAt table.types index ∧
      (required → row.normalAt table.types index ≠ .null) ∧
      (table.types[index]? = some .json →
        ∃ members, row.normalAt table.types index = .json (.object members))
  | .list indices => ∀ index ∈ indices, row.IsPartAt table.concatenator index
  | .dict pairs => ∀ pair ∈ pairs, row.IsPlainAt table.types pair.2 ∧
      (table.types[pair.2]? = some .json → row.MergesAt table.types pairs pair.2)

section

variable {table : Table} {row : Row}

/-- A cell that converts gives its normal form, which is of the kind that its column
declares. -/
theorem Row.IsPlainAt.exists_convert {index : Nat} {type : ColumnType}
    (plain : row.IsPlainAt table.types index) (declared : table.types[index]? = some type) :
    ∃ cell : Cell, cell.convert type = .ok (row.normalAt table.types index) ∧
      (type = .str → ∀ value, cell ≠ .json value) := by
  obtain ⟨cell, other, present, known, made⟩ := Row.convertAt_eq_ok_iff.mp plain.1.eq
  cases known.symm.trans declared
  refine ⟨cell, made, ?_⟩
  rintro rfl value rfl
  exact plain.2 declared value present

/-- A column of a type whose cells convert to themselves keeps the normal form of its
cell. -/
theorem Row.IsPlainAt.stored_eq {index : Nat} {type : ColumnType}
    (plain : row.IsPlainAt table.types index) (declared : table.types[index]? = some type)
    (stable : type.IsStable) (present : type = .json → row.normalAt table.types index ≠ .null) :
    Encoder.stored table.types index (row.normalAt table.types index) =
      row.normalAt table.types index := by
  obtain ⟨cell, made, texts⟩ := plain.exists_convert declared
  exact Encoder.stored_eq declared (Cell.convert_convert stable (fun str => texts str .null) present made)

namespace Event

/-- The cells of the columns that suit a kind of values convert to themselves. -/
theorem Content.isStable_columnType (content : Content) : content.columnType.IsStable := by
  cases content with
  | source =>
    refine ⟨List.cons_ne_nil _ _, fun variant member => ?_⟩
    rcases List.mem_pair.mp member with rfl | rfl
    · rfl
    · rfl
  | text | instant | zone | integer | object => trivial

/-- The fields of instants, integers and sources are among those that null is not
read as null in. -/
theorem mem_requiredFields {field : String}
    (needed : content field = .instant ∨ content field = .integer ∨ content field = .source) :
    field ∈ requiredFields := by
  simp only [content] at needed
  split at needed
  · rename_i same
    rw [same]
    decide
  · split at needed
    · simp at needed
    · split at needed
      · rename_i same
        rw [same]
        decide
      · split at needed
        · rename_i same
          rw [same]
          decide
        · split at needed <;> simp at needed

variable {field : String} {fallback : String → Cell}

/-- The normal form of the cell of a single column is a value that its field keeps.

Proof: a converted cell has the kind that the content of the field asks for, or it is null.
The restoring conditions exclude null where the field needs a value, and an object is given
by a condition of its own, as a column of JSON type can hold other values. -/
theorem keeps_single {index : Nat}
    (admits : (content field).Admits table.types (.single index))
    (restores : row.Restores table (field ∈ requiredFields) (.single index)) :
    Keeps field (row.normalAt table.types index) := by
  obtain ⟨plain, needed, objects⟩ := restores
  have declared : table.types[index]? = some (content field).columnType := admits
  obtain ⟨cell, made, _⟩ := plain.exists_convert declared
  have kind := Cell.isOf_of_convert made
  rw [Keeps]
  cases held : content field with
  | text =>
    rw [held] at kind
    cases known : row.normalAt table.types index with
    | null => exact .inr ⟨rfl, fun required => needed required known⟩
    | text value => exact .inl ⟨value, rfl⟩
    | _ => simp [known, Content.columnType, Cell.IsOf] at kind
  | instant =>
    have present := needed (mem_requiredFields (.inl held))
    rw [held] at kind
    cases known : row.normalAt table.types index with
    | null => exact absurd known present
    | instant value => exact ⟨value, rfl⟩
    | _ => simp [known, Content.columnType, Cell.IsOf] at kind
  | zone =>
    rw [held] at kind
    cases known : row.normalAt table.types index with
    | null => exact .inl rfl
    | zone value => exact .inr ⟨value, rfl⟩
    | _ => simp [known, Content.columnType, Cell.IsOf] at kind
  | integer =>
    have present := needed (mem_requiredFields (.inr (.inl held)))
    rw [held] at kind
    cases known : row.normalAt table.types index with
    | null => exact absurd known present
    | integer value => exact ⟨value, rfl⟩
    | _ => simp [known, Content.columnType, Cell.IsOf] at kind
  | source =>
    have present := needed (mem_requiredFields (.inr (.inr held)))
    rw [held] at made
    rcases Cell.variant_of_convert (List.cons_ne_nil _ _) made with null | ⟨variant, member, known⟩
    · exact absurd null present
    · rw [known]
      rcases List.mem_pair.mp member with rfl | rfl
      · exact ⟨.game, rfl⟩
      · exact ⟨.generated, rfl⟩
  | object =>
    rw [held] at declared
    exact objects declared

end Event

/-- A part of a list that is a text or an integer is kept by its column as the cell that it
stands for. A text is stored by the conversion that the row was read with. An integer has
been read as its digits, which are converted to themselves. -/
theorem Row.IsPartAt.stored_eq {concatenator text : String} {index : Nat}
    (part : row.IsPartAt concatenator index) (declared : table.types[index]? = some .str)
    (found : row.textAt index = .ok text) :
    Encoder.stored table.types index (.text text) = row.normalAt table.types index := by
  obtain ⟨cell, present, kind, _⟩ := part
  obtain ⟨converted, made⟩ := Cell.convert_str_isOk cell
  have normal : row.normalAt table.types index = converted := by
    rw [Row.normalAt, Row.convertAt_eq_ok_iff.mpr ⟨cell, .str, present, declared, made⟩]
  rw [Row.textAt, present] at found
  cases found
  rw [normal]
  apply Encoder.stored_eq declared
  rcases kind with ⟨value, rfl⟩ | ⟨value, rfl⟩
  · exact made
  · have shown : converted = .text (Cell.integer value).display := by
      cases made
      rfl
    rw [← shown]
    refine @Cell.convert_convert _ (.integer value) _ trivial ?_ ?_ made
    · rintro - same
      cases same
    · rintro same
      cases same

/-- The texts of a list of parts are found, and none of them has the concatenator. -/
theorem Row.exists_texts {concatenator : String} {indices : List Nat}
    (parts : ∀ index ∈ indices, row.IsPartAt concatenator index) :
    ∃ texts, indices.mapM row.textAt = .ok texts ∧
      ∀ text ∈ texts, ∀ character ∈ concatenator.toList, character ∉ text.toList := by
  have every : ∀ index ∈ indices, ∃ text, row.textAt index = .ok text := by
    intro index member
    obtain ⟨cell, present, _⟩ := parts index member
    exact ⟨cell.display, by rw [Row.textAt, present]⟩
  obtain ⟨texts, found⟩ := exists_mapM_eq_ok every
  refine ⟨texts, found, fun text member => ?_⟩
  obtain ⟨index, inside, own⟩ := exists_source_of_mem (mapM_eq_ok_iff.mp found) member
  obtain ⟨cell, present, _, free⟩ := parts index inside
  rw [Row.textAt, present] at own
  cases own
  exact free

/-- A cell of a column of texts, integers or truth values is named in an object. Its JSON
value is read as the same cell again, and conversions to these types are stable. -/
theorem Row.IsPlainAt.isNamed {index : Nat} {type : ColumnType}
    (plain : row.IsPlainAt table.types index) (declared : table.types[index]? = some type)
    (simple : type = .str ∨ type = .int ∨ type = .bool) :
    Encoder.IsNamed table.types index (row.normalAt table.types index) := by
  have stable : type.IsStable := by
    rcases simple with rfl | rfl | rfl <;> trivial
  have other : type = .json → row.normalAt table.types index ≠ .null := by
    rcases simple with rfl | rfl | rfl <;> exact fun same => nomatch same
  have kept := plain.stored_eq declared stable other
  obtain ⟨cell, made, _⟩ := plain.exists_convert declared
  have kind := Cell.isOf_of_convert made
  rw [Encoder.IsNamed]
  cases known : row.normalAt table.types index with
  | null =>
    rw [known] at kept
    exact ⟨rfl, kept⟩
  | text value =>
    rw [known] at kept
    exact ⟨rfl, kept⟩
  | boolean value =>
    rw [known] at kept
    exact ⟨rfl, kept⟩
  | integer value =>
    rw [known] at kept
    exact ⟨rfl, by rw [Cell.ofJson_toJson_integer]; exact kept⟩
  | float | instant | span | zone | json =>
    rcases simple with rfl | rfl | rfl <;> simp [known, Cell.IsOf] at kind

/-- The columns of a dictionary get their cells back from its object. -/
theorem Row.separates {pairs : List (String × Nat)}
    (admits : Event.Content.object.Admits table.types (.dict pairs))
    {required : Prop} (restores : row.Restores table required (.dict pairs)) :
    Encoder.Separates table.types pairs (row.normalAt table.types) := by
  obtain ⟨_, distinct, declared, single⟩ := admits
  refine ⟨distinct, single, fun pair member => ?_⟩
  obtain ⟨plain, merges⟩ := restores pair member
  obtain ⟨type, simple, known⟩ := declared pair member
  by_cases json : type = .json
  · subst json
    rcases merges known with ⟨items, list⟩ | ⟨inner, object, filled, keys, free⟩
    · rw [list]
      exact .inl ⟨rfl, Encoder.stored_eq known rfl⟩
    · exact .inr ⟨known, inner, object, filled, keys, free⟩
  · refine .inl (plain.isNamed known ?_)
    simpa [json] using simple

/-- The columns that a table gives a field get the cells of a row back from the event that
was read from the row.

Proof: a field without columns writes nothing. With one column the value is kept and stored
as it was converted. A list of columns gets the parts of the joined text, of which there are
as many as texts, since no text has the separator in it. A dictionary gets the members of
the composed object, which tell whose they are. -/
theorem Event.writeField_eq (suits : table.SuitsEvents) {field : String} (member : field ∈ fields)
    (restores : row.Restores table (field ∈ requiredFields) (table.locate field))
    (fallback : String → Cell) (sequence : SessionSequence) (start : Row) :
    Encoder.writeField table start field
        (fieldValue (complete sequence (read ⟨table, row, fallback⟩).value).1 field) =
      start.overwrite (row.normalAt table.types) (table.locate field).indices := by
  have admits := suits.columns field member
  cases place : table.locate field with
  | absent =>
    rw [Encoder.writeField, place]
    rfl
  | single index =>
    rw [place] at admits restores
    have found := @RowReader.value_resolve_single ⟨table, row, fallback⟩ _ _ place restores.1.1
    rw [fieldValue_of_keeps member (found ▸ keeps_single admits restores), found,
      Encoder.writeField, place]
    have kept := restores.1.stored_eq admits (content field).isStable_columnType
      fun json null => by
        obtain ⟨members, object⟩ := restores.2.2 (by rw [admits, json])
        cases null.symm.trans object
    simp only [Encoder.write_eq_set, kept]
    rfl
  | list indices =>
    rw [place] at admits restores
    obtain ⟨held, declared⟩ := admits
    obtain ⟨texts, made, free⟩ := Row.exists_texts restores
    obtain ⟨separator, single⟩ := suits.joined
    have found := @RowReader.value_resolve_list ⟨table, row, fallback⟩ _ _ _ place made
    have kept : Keeps field (RowReader.resolve ⟨table, row, fallback⟩ field).value := by
      rw [found, Keeps, held]
      exact .inl ⟨_, rfl⟩
    obtain ⟨width, steps⟩ := List.forall₂_iff_zip.mp (mapM_eq_ok_iff.mp made)
    rw [fieldValue_of_keeps member kept, found, Encoder.writeField, place]
    refine Encoder.writeList_eq single ?_ ?_ width ?_ start
    · rintro rfl
      exact table.list_ne_nil place (List.length_eq_zero_iff.mp width)
    · intro text inside
      apply free text inside separator
      rw [single]
      simp
    · rintro ⟨index, text⟩ inside
      have own := (List.of_mem_zip inside).1
      exact (restores index own).stored_eq (declared index own) (steps inside)
  | dict pairs =>
    rw [place] at admits restores
    have held : content field = .object := admits.1
    rw [held] at admits
    have separates := Row.separates admits restores
    have found := @RowReader.value_resolve_dict ⟨table, row, fallback⟩ _ _ place
      fun pair inside => (restores pair inside).1.1
    have kept : Keeps field (RowReader.resolve ⟨table, row, fallback⟩ field).value := by
      rw [found, Keeps, held]
      exact ⟨_, rfl⟩
    rw [fieldValue_of_keeps member kept, found, Encoder.writeField, place]
    simp only [separates.compose_eq]
    exact separates.writeDict_eq start

/-- A row that can be taken back is decoded to an event, and the event is encoded to the
normal form of the row.

Proof: a row of the right width is decoded, and encoding the event writes field after field.
Every field gives its columns their converted cells back, and so the row is the one with
converted cells where fields point, and with nulls elsewhere. -/
theorem Event.encode_decode {decoder : Decoder} {row : Row}
    (width : row.length = decoder.table.columns.length) (suits : decoder.table.SuitsEvents)
    (restores : ∀ field ∈ fields, row.Restores decoder.table (field ∈ requiredFields)
      (decoder.table.locate field))
    (progress : Progress) :
    ∃ event after, decoder.decode format progress row = (.ok event, after) ∧
      format.encode decoder.table event = format.normalize decoder.table row := by
  refine ⟨_, _, by simp only [Decoder.decode, if_pos width]; rfl, ?_⟩
  rw [RecordFormat.normalize_eq]
  exact RecordFormat.encode_eq fun field member start =>
    writeField_eq suits member (restores field member) decoder.fallback progress.sequence start

end

/-- A table that gives fields of events locators of every form. -/
def visitTable : Table where
  name := "visits"
  columns := [⟨"session", .str, none⟩, ⟨"major", .str, none⟩, ⟨"minor", .str, none⟩,
    ⟨"time", .datetime, none⟩, ⟨"level", .int, none⟩, ⟨"rest", .json, none⟩,
    ⟨"source", Event.sourceType, none⟩, ⟨"note", .float, none⟩]
  mapping := .ofList [("session_id", .single 0), ("app_version", .list [1, 2]),
    ("timestamp", .single 3), ("event_data", .dict [("level", 4), ("rest", 5)]),
    ("event_source", .single 6)]
  concatenator := "."
  consistent := by decide +kernel

/-- A row whose cells are not all as their columns declare them. -/
def visitRow : Row :=
  [.integer 12, .text "1", .integer 4, .instant Event.epoch, .text "7",
    .json (.object [("area", .text "cave")]), .text " game ", .text "unused"]

/-- A row of visits comes back with its cells converted and the last one dropped. -/
theorem Event.encode_decode_visit :
    ∃ event after, Decoder.decode ⟨visitTable, fun _ => .null, false⟩ format (.start true) visitRow =
        (.ok event, after) ∧
      format.encode visitTable event = format.normalize visitTable visitRow := by
  have suits : visitTable.SuitsEvents := by
    refine ⟨⟨'.', rfl⟩, ?_⟩
    simp only [fields, List.forall_mem_cons]
    refine ⟨rfl, trivial, rfl, trivial, ?_, rfl, ⟨rfl, by decide⟩, trivial, trivial, trivial,
      trivial, trivial, trivial, trivial, by simp⟩
    have pairs : visitTable.locate "event_data" = .dict [("level", 4), ("rest", 5)] := rfl
    rw [pairs]
    exact ⟨rfl, by decide, by decide, by decide⟩
  refine @encode_decode ⟨visitTable, fun _ => .null, false⟩ _ rfl suits ?_ _
  have known (index : Nat) {value : Cell}
      (made : visitRow.convertAt visitTable.types index = .ok value)
      (plain : ∀ inner, visitRow[index]? ≠ some (.json inner)) :
      visitRow.IsPlainAt visitTable.types index := ⟨⟨value, made⟩, fun _ => plain⟩
  have single (index : Nat) {value : Cell} (required : Prop)
      (made : visitRow.convertAt visitTable.types index = .ok value)
      (plain : ∀ inner, visitRow[index]? ≠ some (.json inner)) (present : value ≠ .null)
      (other : visitTable.types[index]? ≠ some .json) :
      visitRow.Restores visitTable required (.single index) := by
    have normal : visitRow.normalAt visitTable.types index = value := by rw [Row.normalAt, made]
    exact ⟨known index made plain, fun _ => normal ▸ present, fun json => absurd json other⟩
  simp only [fields, List.forall_mem_cons]
  refine ⟨?_, trivial, ?_, trivial, ?_, ?_, ?_, trivial, trivial, trivial, trivial,
    trivial, trivial, trivial, by simp⟩
  · exact single 0 _ rfl (by simp [visitRow]) (by simp) (by decide)
  · exact single 3 _ rfl (by simp [visitRow]) (by simp) (by decide)
  · have pairs : visitTable.locate "event_data" = .dict [("level", 4), ("rest", 5)] := rfl
    rw [pairs]
    intro pair member
    rcases List.mem_pair.mp member with rfl | rfl
    · exact ⟨known 4 rfl (by simp [visitRow]), fun json => absurd json (by decide)⟩
    · exact ⟨⟨⟨_, rfl⟩, fun text => absurd text (by decide)⟩, fun _ => .inr ⟨_, rfl, by simp, by simp, by simp⟩⟩
  · exact single 6 _ rfl (by simp [visitRow]) (by simp) (by decide)
  · have separator : visitTable.concatenator.toList = ['.'] := rfl
    intro index member
    rw [Row.IsPartAt, separator]
    rcases List.mem_pair.mp member with rfl | rfl
    · exact ⟨.text "1", rfl, .inl ⟨_, rfl⟩, List.forall_mem_singleton.mpr (by decide)⟩
    · exact ⟨.integer 4, rfl, .inr ⟨_, rfl⟩, List.forall_mem_singleton.mpr (by decide)⟩

end EventSieve
