import EventSieve.Proofs.Cell.Conversion
import EventSieve.Proofs.Record.EventReading
import EventSieve.Proofs.Record.Resolution
import EventSieve.Proofs.Record.Untouched
import EventSieve.Proofs.Text.Separators
import EventSieve.Record.Decoder

/-!
# Texts on lists of columns

A text of an event that stands on a list of columns is the text of their cells joined
by the concatenator. When the event is written back, the text is cut at the
concatenator, and the columns get the parts if there are as many of them as columns;
otherwise they stay null. When the list shares no column with other fields and its
cells are texts, the columns therefore hold their own texts again, or null in all of
them, exactly if the concatenator keeps so many texts apart: if it has no border, or
the list is a single column, or the concatenator is empty and there are two columns.
-/

namespace EventSieve

/-- Whether a field of events that holds a text stands on a list of different columns of
texts that no other field of events refers to. -/
structure Table.JoinsTexts (table : Table) (field : String) (indices : List Nat) : Prop where
  member : field ∈ Event.fields
  text : Event.content field = .text
  place : table.locate field = .list indices
  distinct : indices.Nodup
  types : ∀ index ∈ indices, table.types[index]? = some .str
  apart : ∀ other ∈ Event.fields, other ≠ field → ∀ index ∈ indices,
    index ∉ (table.locate other).indices

/-- Whether a row has texts in some columns, none of which stands for no value. -/
def Row.HasTexts (row : Row) (indices : List Nat) : Prop :=
  ∀ index ∈ indices, ∃ text, row[index]? = some (.text text) ∧ text ∉ Cell.emptyWords

/-- Whether some columns come back from a row as they were, or are all null. -/
def Row.ComesBack (row encoded : Row) (indices : List Nat) : Prop :=
  (∀ index ∈ indices, encoded[index]? = row[index]?) ∨
    ∀ index ∈ indices, encoded[index]? = some .null

namespace Row

/-- The text of the cell of a column; empty when there is none. -/
def displayAt (row : Row) (index : Nat) : String :=
  (row[index]?.map Cell.display).getD ""

/-- The row of a width that has texts in some columns and null in all others. -/
def ofTexts (width : Nat) (indices : List Nat) (texts : List String) : Row :=
  overwrite (List.replicate width .null) (fun index => .text (texts.getD (indices.idxOf index) ""))
    indices

/-- A row of texts has the width that it is made for. -/
theorem length_ofTexts (width : Nat) (indices : List Nat) (texts : List String) :
    (ofTexts width indices texts).length = width := by
  rw [ofTexts, length_overwrite, List.length_replicate]

/-- The columns of a row of texts hold texts. -/
theorem getElem?_ofTexts {width index : Nat} {indices : List Nat} (inside : index < width)
    (own : index ∈ indices) (texts : List String) :
    (ofTexts width indices texts)[index]? =
      some (.text ((ofTexts width indices texts).displayAt index)) := by
  have present : (ofTexts width indices texts)[index]? =
      some (.text (texts.getD (indices.idxOf index) "")) := by
    rw [ofTexts, getElem?_overwrite, List.length_replicate, if_pos ⟨own, inside⟩]
  rw [displayAt, present]
  rfl

/-- The columns of a row of texts show the texts that it is made of. -/
theorem map_displayAt_ofTexts {width : Nat} {indices : List Nat} {texts : List String}
    (distinct : indices.Nodup) (inside : ∀ index ∈ indices, index < width)
    (length : indices.length = texts.length) :
    indices.map (ofTexts width indices texts).displayAt = texts := by
  have shown : ∀ index ∈ indices, (ofTexts width indices texts).displayAt index =
      texts.getD (indices.idxOf index) "" := by
    intro index own
    rw [displayAt, ofTexts, getElem?_overwrite, List.length_replicate,
      if_pos ⟨own, inside index own⟩]
    rfl
  rw [List.map_congr_left shown]
  apply List.ext_getElem
  · rw [List.length_map, length]
  · intro place first second
    rw [List.length_map] at first
    rw [List.getElem_map, distinct.idxOf_getElem place first, List.getD_eq_getElem _ _ second]

end Row

/-- A text that starts with a digit stands for a value. -/
theorem Cell.not_mem_emptyWords_of_isDigit {first : Char} (inside : first.isDigit = true)
    (rest : List Char) : String.ofList (first :: rest) ∉ emptyWords :=
  Text.HasDigit.not_mem_emptyWords
    ⟨first, by rw [String.toList_ofList]; exact List.mem_cons_self, inside⟩

/-- The parts of a joined text. -/
def Table.partsOf (table : Table) (texts : List String) : List (List Char) :=
  Text.piecesOf table.concatenator.toList (table.concatenator.intercalate texts).toList

/-- The parts of texts by their characters. -/
theorem Table.partsOf_map_ofList (table : Table) (pieces : List (List Char)) :
    table.partsOf (pieces.map String.ofList) =
      Text.piecesOf table.concatenator.toList (table.concatenator.toList.intercalate pieces) := by
  have same : (String.toList ∘ String.ofList) = id := funext fun _ => String.toList_ofList
  rw [partsOf, String.toList_intercalate, List.map_map, same, List.map_id]

namespace Table.JoinsTexts

variable {table : Table} {field : String} {indices : List Nat}

/-- The columns of a list are columns of the table. -/
theorem index_lt (joins : table.JoinsTexts field indices) {index : Nat} (own : index ∈ indices) :
    index < table.columns.length := by
  apply table.index_lt field
  rw [joins.place]
  exact own

/-- An event that is decoded has the joined texts of the columns in its field. The row has
the width of the table, so every column of the list has a cell to show, and the joined text
is one that the field keeps. -/
theorem decode_eq {decoder : Decoder} (joins : decoder.table.JoinsTexts field indices) {row : Row}
    (width : row.length = decoder.table.columns.length) (progress : Progress) :
    ∃ event later, decoder.decode Event.format progress row = (.ok event, later) ∧
      event.fieldValue field =
        .text (decoder.table.concatenator.intercalate (indices.map row.displayAt)) := by
  have shown : ∀ index ∈ indices, row.textAt index = .ok (row.displayAt index) := by
    intro index own
    have inside : index < row.length := by
      rw [width]
      exact joins.index_lt own
    simp only [Row.textAt, Row.displayAt, List.getElem?_eq_getElem inside, Option.map_some,
      Option.getD_some]
  have texts : indices.mapM row.textAt = .ok (indices.map row.displayAt) := by
    apply mapM_eq_ok_iff.mpr
    rw [List.forall₂_map_right_iff]
    exact List.forall₂_same.mpr shown
  have found := @RowReader.value_resolve_list ⟨decoder.table, row, decoder.fallback⟩ _ _ _
    joins.place texts
  have kept : Event.Keeps field
      (RowReader.resolve ⟨decoder.table, row, decoder.fallback⟩ field).value := by
    rw [found, Event.Keeps, joins.text]
    exact .inl ⟨_, rfl⟩
  obtain ⟨later, made, _⟩ := Decoder.decode_of_width Event.format progress width
  refine ⟨_, later, made, ?_⟩
  exact (Event.fieldValue_of_keeps joins.member kept progress.sequence).trans found

/-- An event is encoded with the parts of the text of the field in the columns of its list
if there are as many of them, and otherwise with null in all of these columns.

Proof: the field has its columns to itself, so what it writes to a row that is null there is
what they hold in the end. The parts are written one for each column, and since the columns
differ none of them is overwritten. -/
theorem getElem?_encode (joins : table.JoinsTexts field indices) {event : Event}
    {texts : List String}
    (held : event.fieldValue field = .text (table.concatenator.intercalate texts)) :
    ((table.partsOf texts).length = indices.length →
      ∀ entry ∈ indices.zip (table.partsOf texts), (Event.format.encode table event)[entry.1]? =
        some (Encoder.stored table.types entry.1 (.text (String.ofList entry.2)))) ∧
    ((table.partsOf texts).length ≠ indices.length →
      ∀ index ∈ indices, (Event.format.encode table event)[index]? = some .null) := by
  have once : Event.format.fields.Nodup := by decide
  obtain ⟨row, width, empty, alone⟩ :=
    RecordFormat.getElem?_encode once joins.member joins.apart event
  have written : Encoder.writeField table row field (Event.format.fieldValue event field) =
      if (table.partsOf texts).length = indices.length then
        (indices.zip (table.partsOf texts)).foldl
          (fun row entry =>
            Encoder.write table.types row entry.1 (.text (String.ofList entry.2))) row
      else row := by
    have value : Event.format.fieldValue event field =
        .text (table.concatenator.intercalate texts) := held
    rw [value, Encoder.writeField, joins.place]
    rfl
  rw [written] at alone
  constructor
  · intro same entry member
    have own := (List.of_mem_zip member).1
    have inside : entry.1 < row.length := by
      rw [width]
      exact joins.index_lt own
    rw [alone _ own, if_pos same]
    have columns : ((indices.zip (table.partsOf texts)).map fun entry =>
        (entry.1, Cell.text (String.ofList entry.2))).map (·.1) = indices := by
      rw [List.map_map]
      exact List.map_fst_zip (Nat.le_of_eq same.symm)
    have kept := @Encoder.getElem?_foldl_write table.types _ (columns.symm ▸ joins.distinct)
      _ (List.mem_map_of_mem member) row inside
    rwa [List.foldl_map] at kept
  · intro other index own
    rw [alone _ own, if_neg other]
    exact empty index own (joins.index_lt own)

/-- A text that is written to a column of the list is kept as a text if it stands for a
value, and null otherwise. -/
theorem stored_eq (joins : table.JoinsTexts field indices) {index : Nat} (own : index ∈ indices)
    (text : String) :
    Encoder.stored table.types index (.text text) =
      if text ∈ Cell.emptyWords then .null else .text text := by
  apply Encoder.stored_eq (joins.types index own)
  split
  · rename_i word
    have nothing : (Cell.text text).isNullLike = true := by simpa [Cell.isNullLike] using word
    rw [Cell.convert, nothing]
    rfl
  · rename_i value
    exact Cell.convert_text value

/-- If the concatenator keeps the texts apart, the columns come back. When the text is cut
into as many parts as there are columns, these parts are the texts, as the concatenator
keeps them apart. Otherwise no column gets anything. -/
theorem comesBack (joins : table.JoinsTexts field indices)
    (apart : Text.JoinsApart table.concatenator.toList indices.length) {row : Row}
    (texts : row.HasTexts indices) {event : Event}
    (held : event.fieldValue field =
      .text (table.concatenator.intercalate (indices.map row.displayAt))) :
    row.ComesBack (Event.format.encode table event) indices := by
  obtain ⟨filled, others⟩ := joins.getElem?_encode held
  by_cases same : (table.partsOf (indices.map row.displayAt)).length = indices.length
  · left
    intro index own
    obtain ⟨text, present, value⟩ := texts index own
    have shown : row.displayAt index = text := by
      rw [Row.displayAt, present]
      rfl
    -- The parts are the texts of the cells, so the column gets the text of its own cell.
    have parts : table.partsOf (indices.map row.displayAt) =
        indices.map fun index => (row.displayAt index).toList := by
      have cut := same
      have filled : indices ≠ [] := table.list_ne_nil joins.place
      rw [Table.partsOf, String.toList_intercalate, List.map_map] at cut ⊢
      have width : (indices.map (String.toList ∘ row.displayAt)).length = indices.length :=
        List.length_map _
      apply Text.JoinsApart.piecesOf_eq
      · rwa [width]
      · simpa using filled
      · rw [cut, width]
    have entry : (index, text.toList) ∈ indices.zip (table.partsOf (indices.map row.displayAt)) := by
      rw [parts, List.zip_eq_zipWith, List.zipWith_map_right, List.zipWith_self]
      exact List.mem_map.mpr ⟨index, own, by rw [shown]⟩
    rw [filled same _ entry, joins.stored_eq own, String.ofList_toList, if_neg value, present]
  · exact .inr (others same)

/-- Columns that hold their texts again got them as parts. The part that a column got was
stored as a text, so it is the text that the column held. -/
theorem parts_eq (joins : table.JoinsTexts field indices) {row : Row} (texts : row.HasTexts indices)
    {event : Event} (held : event.fieldValue field =
      .text (table.concatenator.intercalate (indices.map row.displayAt)))
    (count : (table.partsOf (indices.map row.displayAt)).length = indices.length)
    (whole : ∀ index ∈ indices, (Event.format.encode table event)[index]? = row[index]?) :
    (table.partsOf (indices.map row.displayAt)).map String.ofList = indices.map row.displayAt := by
  have each : ∀ entry ∈ indices.zip (table.partsOf (indices.map row.displayAt)),
      String.ofList entry.2 = row.displayAt entry.1 := by
    intro entry inside
    have own := (List.of_mem_zip inside).1
    obtain ⟨text, present, _⟩ := texts _ own
    have kept := ((joins.getElem?_encode held).1 count entry inside).symm.trans (whole _ own)
    rw [joins.stored_eq own, present, Option.some.injEq] at kept
    rw [Row.displayAt, present]
    split at kept
    · cases kept
    · exact Cell.text.inj kept
  calc (table.partsOf (indices.map row.displayAt)).map String.ofList
      = (indices.zip (table.partsOf (indices.map row.displayAt))).map
          fun entry => String.ofList entry.2 := by
        conv_lhs => rw [← List.map_snd_zip (Nat.le_of_eq count), List.map_map]
        rfl
    _ = (indices.zip (table.partsOf (indices.map row.displayAt))).map
          fun entry => row.displayAt entry.1 := List.map_congr_left each
    _ = indices.map row.displayAt := by
        conv_rhs => rw [← List.map_fst_zip (Nat.le_of_eq count.symm), List.map_map]
        rfl

/-- If the concatenator does not keep the texts apart, some row does not come back.

Proof: there are texts that are cut differently, although into as many parts, when the
concatenator does not keep so many apart. A row with these texts comes back with other ones;
and some part is a digit, which stands for a value, so its column is not null. -/
theorem exists_scrambled (joins : table.JoinsTexts field indices)
    (touching : ¬ Text.JoinsApart table.concatenator.toList indices.length) :
    ∃ row : Row, row.length = table.columns.length ∧ row.HasTexts indices ∧
      ∀ event : Event, event.fieldValue field =
          .text (table.concatenator.intercalate (indices.map row.displayAt)) →
        ¬ row.ComesBack (Event.format.encode table event) indices := by
  obtain ⟨pieces, size, straddles⟩ := Text.exists_straddles touching
  have values : ∀ text ∈ pieces.map String.ofList, text ∉ Cell.emptyWords := by
    refine List.forall_mem_map.mpr fun piece member => ?_
    cases piece with
    | nil => decide
    | cons first rest =>
      exact Cell.not_mem_emptyWords_of_isDigit (straddles.digits _ member first rfl) rest
  have length : indices.length = (pieces.map String.ofList).length := by
    rw [List.length_map, size]
  have shown := Row.map_displayAt_ofTexts joins.distinct (fun _ => joins.index_lt) length
  have texts : (Row.ofTexts table.columns.length indices (pieces.map String.ofList)).HasTexts
      indices := by
    intro index own
    rw [← shown] at values
    exact ⟨_, Row.getElem?_ofTexts (joins.index_lt own) own _,
      List.forall_mem_map.mp values index own⟩
  have cut := table.partsOf_map_ofList pieces
  refine ⟨_, Row.length_ofTexts _ _ _, texts, ?_⟩
  intro event held
  have count := straddles.count
  rw [← cut, ← shown, size] at count
  rintro (whole | nothing)
  · apply straddles.differ
    have equal := joins.parts_eq texts held count whole
    rw [shown, cut] at equal
    exact List.map_injective_iff.mpr (fun _ _ => String.ofList_inj.mp) equal
  · -- The digit among the parts stands for a value.
    obtain ⟨digit, isDigit, member⟩ := straddles.digit
    rw [← cut, ← shown, ← List.map_snd_zip (Nat.le_of_eq count)] at member
    obtain ⟨entry, inside, part⟩ := List.mem_map.mp member
    have own := (List.of_mem_zip inside).1
    have kept := ((joins.getElem?_encode held).1 count entry inside).symm.trans (nothing _ own)
    have value : String.ofList entry.2 ∉ Cell.emptyWords := by
      rw [part]
      exact Cell.not_mem_emptyWords_of_isDigit isDigit []
    rw [joins.stored_eq own, if_neg value] at kept
    cases kept

end Table.JoinsTexts

/-- The columns of a text on a list come back from every row with texts in them, or are all
null, exactly if the concatenator keeps so many texts apart.

Proof: a decoded event holds the texts joined by the concatenator. Encoding cuts that text
at the concatenator, and writes the parts if there are as many as columns. These are the
texts again if they are kept apart, and else some texts are cut in another way. -/
theorem list_columns_come_back_iff {table : Table} {field : String} {indices : List Nat}
    (joins : table.JoinsTexts field indices) :
    (∀ (fallback : String → Cell) (failFast : Bool) (progress : Progress) (row : Row),
      row.length = table.columns.length → row.HasTexts indices →
        ∃ event later,
          Decoder.decode ⟨table, fallback, failFast⟩ Event.format progress row = (.ok event, later) ∧
          row.ComesBack (Event.format.encode table event) indices) ↔
      Text.JoinsApart table.concatenator.toList indices.length := by
  constructor
  · intro comeBack
    by_contra touching
    obtain ⟨row, width, texts, scrambled⟩ := joins.exists_scrambled touching
    obtain ⟨event, later, made, back⟩ :=
      comeBack (fun _ => .null) false (.start true) row width texts
    obtain ⟨same, after, decoded, held⟩ :=
      @Table.JoinsTexts.decode_eq _ _ ⟨table, fun _ => .null, false⟩ joins row width (.start true)
    cases (congrArg Prod.fst made).symm.trans (congrArg Prod.fst decoded)
    exact scrambled event held back
  · intro apart fallback failFast progress row width texts
    obtain ⟨event, later, made, held⟩ :=
      @Table.JoinsTexts.decode_eq _ _ ⟨table, fallback, failFast⟩ joins row width progress
    exact ⟨event, later, made, joins.comesBack apart texts held⟩

/-- A table with a version in two columns. -/
def versionTable (concatenator : String) : Table where
  name := "t"
  columns := [⟨"p", .str, none⟩, ⟨"q", .str, none⟩]
  mapping := .ofList [("app_version", .list [0, 1])]
  concatenator := concatenator
  consistent := by decide +kernel

/-- The columns of the version share no column with another field. -/
theorem versionTable_joins (concatenator : String) :
    (versionTable concatenator).JoinsTexts "app_version" [0, 1] where
  member := by decide
  text := rfl
  place := rfl
  distinct := by decide
  types := by
    have types : (versionTable concatenator).types = [.str, .str] := rfl
    rw [types]
    decide
  apart := by
    have absent : ∀ other ∈ Event.fields, other ≠ "app_version" →
        Mapping.locate other (.ofList [("app_version", .list [0, 1])]) = .absent := by
      decide
    intro other member different index _
    have place : (versionTable concatenator).locate other = .absent := absent other member different
    rw [place]
    exact List.not_mem_nil

/-- Versions that are joined by a comma and a blank come back, or are null. -/
theorem list_columns_come_back_comma :
    (versionTable ", ").JoinsTexts "app_version" [0, 1] ∧
      ∀ (fallback : String → Cell) (failFast : Bool) (progress : Progress) (row : Row),
        row.length = 2 → row.HasTexts [0, 1] →
          ∃ event later,
            Decoder.decode ⟨versionTable ", ", fallback, failFast⟩ Event.format progress row =
              (.ok event, later) ∧
            row.ComesBack (Event.format.encode (versionTable ", ") event) [0, 1] :=
  ⟨versionTable_joins ", ", (list_columns_come_back_iff (versionTable_joins ", ")).mpr (by decide)⟩

/-- Two colons that stand between a text with a colon at its end and another text are
found too early, so both columns hold other texts than before. -/
theorem list_columns_moved :
    (versionTable "::").JoinsTexts "app_version" [0, 1] ∧
      Row.HasTexts [.text "a:", .text "b"] [0, 1] ∧
      ∃ event later,
        Decoder.decode ⟨versionTable "::", fun _ => .null, false⟩ Event.format (.start true)
          [.text "a:", .text "b"] = (.ok event, later) ∧
        Event.format.encode (versionTable "::") event = [.text "a", .text ":b"] ∧
        ¬ Row.ComesBack [.text "a:", .text "b"] [.text "a", .text ":b"] [0, 1] := by
  have texts : Row.HasTexts [.text "a:", .text "b"] [0, 1] :=
    List.forall_mem_cons.mpr ⟨⟨"a:", rfl, by decide⟩,
      List.forall_mem_singleton.mpr ⟨"b", rfl, by decide⟩⟩
  refine ⟨versionTable_joins "::", texts, _, _, rfl, rfl, ?_⟩
  rintro (whole | nothing)
  · have first := whole 0 List.mem_cons_self
    simp at first
  · have first := nothing 0 List.mem_cons_self
    simp at first

end EventSieve
