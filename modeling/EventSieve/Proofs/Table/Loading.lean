import EventSieve.Proofs.Json.Fields
import EventSieve.Proofs.Table.Placement

/-!
# Which table documents are loaded

A document of the expected form has its parts under known keys in any order; what it
spells is said by these parts alone. Loading it can then only fail because the parts
do not fit together: a type has no name, two columns share one, or an entry of the
column map does not place its field in declared columns. If none of this is the case
there is a table, and it is the one that the parts describe.

Both halves of the statement rest on one reading of column maps, so a field of a
loaded table stands exactly where its entry says.
-/

namespace EventSieve

open Json (Document Given SpelledOption valuesOf)

/-- Whether a document spells an optional text: null spells that there is none. -/
def SpelledText : Option String → Document → Prop :=
  SpelledOption fun content document => document = .text (some content)

namespace ColumnEntry

/-- The keys of the parts of a column. -/
def Part.spellings : Part → List String
  | .name => ["name"]
  | .type => ["type"]
  | .description => ["description"]

/-- Whether a document spells a part of a column. -/
def SpelledPart (entry : ColumnEntry) : Part → Document → Prop
  | .name, document => document = .text (some entry.name)
  | .type, document => document = .text (some entry.tag)
  | .description, document => SpelledText entry.description document

/-- Whether a part of a column may be left out. -/
def MayLack (entry : ColumnEntry) (part : Part) : Prop :=
  part = .description ∧ entry.description = none

/-- Whether a document spells a column: as an object with keys in any order, of which
those that mean nothing may have any value, or as the list of the parts. -/
inductive SpelledBy (entry : ColumnEntry) : Document → Prop
  | object {members : List (Option String × Document)}
      (keys : ∀ member ∈ members, member.1.isSome = true)
      (parts : ∀ part, Given (entry.MayLack part) (entry.SpelledPart part)
        (valuesOf part.spellings members)) :
      SpelledBy entry (.object members true)
  | list {name type description : Document} (ownName : entry.SpelledPart .name name)
      (ownType : entry.SpelledPart .type type)
      (ownDescription : entry.SpelledPart .description description) :
      SpelledBy entry (.list [name, type, description] true)

/-- The reader of columns knows its parts by these keys. -/
theorem reader_spelledBy : reader.SpelledBy Part.spellings := by
  intro key part
  change Part.named? key = some part ↔ key ∈ part.spellings
  cases part <;> simp only [Part.named?, Part.spellings, List.mem_singleton] <;> grind

/-- Whether nothing has been read for a part. -/
def Draft.Lacks : Part → Draft → Prop
  | .name, draft => draft.name = none
  | .type, draft => draft.tag = none
  | .description, draft => draft.description = none

/-- Whether what has been read for a part is that of an entry. -/
def Draft.Has (entry : ColumnEntry) : Part → Draft → Prop
  | .name, draft => draft.name = some entry.name
  | .type, draft => draft.tag = some entry.tag
  | .description, draft => draft.description = entry.description

variable {entry : ColumnEntry} {depth : Nat}

/-- A part is read from what spells it, and no other part changes. Each part has a slot of
its own in the draft, so filling it leaves the slots of the others alone. -/
theorem takes_spelledPart {part : Part} {document : Document}
    (spelled : entry.SpelledPart part document) :
    reader.Takes depth Draft.Lacks (Draft.Has entry) part document := by
  intro draft lacks
  cases part with
  | name =>
    cases spelled
    refine ⟨{ draft with name := some entry.name }, rfl, rfl, ?_⟩
    intro other apart
    cases other <;> first | exact absurd rfl apart | exact ⟨id, id⟩
  | type =>
    cases spelled
    refine ⟨{ draft with tag := some entry.tag }, rfl, rfl, ?_⟩
    intro other apart
    cases other <;> first | exact absurd rfl apart | exact ⟨id, id⟩
  | description =>
    refine ⟨{ draft with description := entry.description }, ?_, rfl, ?_⟩
    · have optional : SpelledText entry.description document := spelled
      generalize entry.description = described at optional
      cases optional with
      | null =>
        rw [← (show draft.description = none from lacks)]
        rfl
      | value spelled =>
        cases spelled
        rfl
    · intro other apart
      cases other <;> first | exact absurd rfl apart | exact ⟨id, id⟩

/-- A column of which all parts have been read is the one that they are from. -/
theorem ofDocument?_of_read {document : Document} {draft : Draft}
    (read : reader.read depth ⟨none, none, none⟩ document = .ok draft)
    (parts : ∀ part, draft.Has entry part) : ofDocument? depth document = some entry := by
  have ownName : draft.name = some entry.name := parts .name
  have ownType : draft.tag = some entry.tag := parts .type
  have ownDescription : draft.description = entry.description := parts .description
  obtain ⟨_, _, _⟩ := draft
  cases ownName
  cases ownType
  cases ownDescription
  simp only [ofDocument?, read]

/-- A column is read from what spells it.

Proof: an object is read member by member, and each member either fills the slot of its part
or is skipped; parts that are not mentioned stay as they were at the start. A list is read
by the places of its items. -/
theorem ofDocument?_of_spelledBy {document : Document} (deep : 1 < depth)
    (spelled : entry.SpelledBy document) : ofDocument? depth document = some entry := by
  cases spelled with
  | @object members keys parts =>
    have known : ∀ member ∈ members, ∃ key, member.1 = some key ∧
        (reader.skipsUnknown = true ∨ ∃ part, key ∈ Part.spellings part) := by
      intro member inside
      obtain ⟨key, same⟩ := Option.isSome_iff_exists.mp (keys member inside)
      exact ⟨key, same, Or.inl rfl⟩
    have stays : ∀ part draft, entry.MayLack part → Draft.Lacks part draft →
        Draft.Has entry part draft := by
      rintro part draft ⟨rfl, none⟩ lacks
      exact lacks.trans none.symm
    have blank : ∀ part, Draft.Lacks part ⟨none, none, none⟩ := by
      intro part
      cases part <;> rfl
    obtain ⟨draft, read, complete⟩ := Json.FieldReader.exists_read Draft.Lacks (Draft.Has entry)
      reader_spelledBy deep known parts (fun part value => takes_spelledPart) stays blank
    exact ofDocument?_of_read read complete
  | @list name type description ownName ownType ownDescription =>
    obtain ⟨_, _, described⟩ := entry
    cases ownName
    cases ownType
    have optional : SpelledText described description := ownDescription
    simp only [ofDocument?, Json.FieldReader.read, if_neg (Nat.not_le.mpr deep)]
    cases optional with
    | null => rfl
    | value spelled =>
      cases spelled
      rfl

end ColumnEntry

namespace TableDocument

/-- The parts of a table in a document. -/
inductive Part where
  | table
  | columns
  | columnMap
  | concatenator

/-- The key of a part. -/
def Part.key : Part → String
  | .table => "table"
  | .columns => "columns"
  | .columnMap => "column_map"
  | .concatenator => "concatenator"

/-- Whether a document spells a part of a table. -/
def SpelledPart (parts : TableDocument) : Part → Document → Prop
  | .table, document => document = .text (some parts.name)
  | .columns, document => ∃ items, document = .list items true ∧
      List.Forall₂ (fun item (entry : ColumnEntry) => entry.SpelledBy item) items parts.columns
  | .columnMap, document =>
      document.value? (Json.depthLimit - 1) = some (.object parts.columnMap)
  | .concatenator, document => SpelledText parts.concatenator document

/-- Whether a part may be left out. -/
def MayLack (parts : TableDocument) : Part → Prop
  | .table | .columns => False
  | .columnMap => parts.columnMap = []
  | .concatenator => parts.concatenator = none

/-- Whether a document spells the parts of a table: an object with their keys in any
order, in which what stands behind any other key has a value. -/
inductive SpelledBy (parts : TableDocument) : Document → Prop
  | object {members : List (String × Document)}
      (given : ∀ part, Given (parts.MayLack part) (parts.SpelledPart part)
        (valuesOf [part.key] (members.map fun member => (some member.1, member.2))))
      (others : ∀ member ∈ members, member.1 ∉ knownKeys →
        (member.2.value? (Json.depthLimit - 1)).isSome = true) :
      SpelledBy parts (.object (members.map fun member => (some member.1, member.2)) true)

variable {parts : TableDocument} {members : List (String × Document)}

/-- Members whose keys are texts are read with their keys. -/
theorem topMembers?_keyed (members : List (String × Document)) :
    topMembers? (.object (members.map fun member => (some member.1, member.2)) true) =
      some members := by
  simp only [topMembers?, List.mapM_map]
  rw [mapM_eq_some_iff]
  exact List.forall₂_same.mpr fun member _ => rfl

/-- The values of a key are those of the members with this key. -/
theorem valuesOf_keyed (key : String) (members : List (String × Document)) :
    valuesOf [key] (members.map fun member => (some member.1, member.2)) =
      (members.filter fun member => member.1 = key).map (·.2) := by
  simp [valuesOf, List.filter_map, Function.comp_def]

/-- A key that gives a part once is found with its value, and a part that is left out is
not found. -/
theorem exists_single? {mayLack : Prop} {Means : Document → Prop} {key : String}
    (given : Given mayLack Means
      (valuesOf [key] (members.map fun member => (some member.1, member.2)))) :
    (single? key members = some none ∧ mayLack) ∨
      ∃ document, single? key members = some (some document) ∧ Means document := by
  rw [valuesOf_keyed] at given
  simp only [single?]
  cases found : members.filter fun member => member.1 = key with
  | nil =>
    rw [found] at given
    cases given with
    | leftOut may => exact Or.inl ⟨rfl, may⟩
  | cons member rest =>
    rw [found] at given
    cases rest with
    | nil =>
      cases given with
      | value means => exact Or.inr ⟨member.2, rfl, means⟩
    | cons => cases given

/-- Other keys than the known ones have values when their documents do. -/
theorem exists_unknownMembers? {depth : Nat}
    (others : ∀ member ∈ members, member.1 ∉ knownKeys → (member.2.value? depth).isSome = true) :
    ∃ unknown, unknownMembers? depth members = some unknown := by
  have each : ∀ member ∈ members.filter fun member => !knownKeys.contains member.1,
      (do return (member.1, ← member.2.value? depth) : Option (String × Json)) =
        some (member.1, (member.2.value? depth).getD .null) := by
    intro member inside
    obtain ⟨given, unknown⟩ := List.mem_filter.mp inside
    obtain ⟨value, read⟩ := Option.isSome_iff_exists.mp (others member given (by simpa using unknown))
    rw [read]
    rfl
  exact ⟨_, by rw [unknownMembers?, mapM_eq_some_map each]; rfl⟩

/-- Columns are read from a list whose items spell them. -/
theorem columnsOf?_of_spelled {document : Document} {depth : Nat} (deep : 2 < depth)
    (spelled : ∃ items, document = .list items true ∧
      List.Forall₂ (fun item (entry : ColumnEntry) => entry.SpelledBy item) items parts.columns) :
    columnsOf? depth document = some parts.columns := by
  obtain ⟨items, rfl, entries⟩ := spelled
  rw [columnsOf?, if_pos (by omega), mapM_eq_some_iff]
  exact entries.imp fun item entry own => ColumnEntry.ofDocument?_of_spelledBy (by omega) own

/-- A concatenator is read from what spells it. -/
theorem concatenatorOf?_of_spelled {document : Document} {content : Option String}
    (spelled : SpelledText content document) :
    concatenatorOf? (some document) = some content := by
  cases spelled with
  | null => rfl
  | value spelled =>
    cases spelled
    rfl

/-- A document is read as the parts that it spells, and the keys that mean nothing. The four
parts are looked up by their keys. A part that may be left out is read as absent, and each
other is read from what spells it. -/
theorem exists_ofDocument? {root : Document} (spelled : parts.SpelledBy root) :
    ∃ unknownKeys, ofDocument? root =
      some ⟨parts.name, parts.columns, parts.columnMap, parts.concatenator, unknownKeys⟩ := by
  obtain ⟨given, others⟩ := spelled
  rename_i members
  obtain ⟨unknown, known⟩ := exists_unknownMembers? others
  obtain ⟨-, impossible⟩ | ⟨_, table, rfl⟩ := exists_single? (given .table)
  · exact impossible.elim
  obtain ⟨-, impossible⟩ | ⟨columns, hasColumns, spelledColumns⟩ := exists_single? (given .columns)
  · exact impossible.elim
  have readColumns : columnsOf? (Json.depthLimit - 1) columns = some parts.columns :=
    columnsOf?_of_spelled (by decide) spelledColumns
  have columnMap : ∃ found, single? "column_map" members = some found ∧
      columnMapOf? (Json.depthLimit - 1) found = some parts.columnMap := by
    obtain ⟨found, empty⟩ | ⟨document, found, value⟩ := exists_single? (given .columnMap)
    · exact ⟨none, found, congrArg some empty.symm⟩
    · refine ⟨some document, found, ?_⟩
      have read : document.value? (Json.depthLimit - 1) = some (.object parts.columnMap) := value
      simp only [columnMapOf?, read]
  have concatenator : ∃ found, single? "concatenator" members = some found ∧
      concatenatorOf? found = some parts.concatenator := by
    obtain ⟨found, absent⟩ | ⟨document, found, optional⟩ := exists_single? (given .concatenator)
    · exact ⟨none, found, congrArg some absent.symm⟩
    · exact ⟨some document, found, concatenatorOf?_of_spelled optional⟩
  obtain ⟨foundMap, hasMap, readMap⟩ := columnMap
  obtain ⟨foundText, hasText, readText⟩ := concatenator
  refine ⟨unknown.map (·.1), ?_⟩
  have hasTable : single? "table" members = some (some (.text (some parts.name))) := table
  have hasColumns : single? "columns" members = some (some columns) := hasColumns
  simp [ofDocument?, topMembers?_keyed, hasTable, hasColumns, readColumns, hasMap, readMap, hasText,
    readText, known]

/-- An object has no key twice. Only the value of an object is an object, and it is built by
putting in pairs, where a key that is there is replaced. -/
theorem nodup_keys_of_value? {document : Document} {depth : Nat} {entries : Json.Members}
    (value : document.value? depth = some (.object entries)) : (entries.map (·.1)).Nodup := by
  cases document with
  | object members closed =>
    simp only [Document.value?] at value
    split at value
    · obtain ⟨pairs, -, same⟩ := Option.map_eq_some_iff.mp value
      cases same
      exact Json.nodup_ofPairs pairs
    · cases value
  | list items closed =>
    simp only [Document.value?] at value
    split at value
    · obtain ⟨values, -, same⟩ := Option.map_eq_some_iff.mp value
      cases same
    · cases value
  | number spelling =>
    obtain ⟨number, -, same⟩ := Option.map_eq_some_iff.mp value
    cases same
  | text content =>
    obtain ⟨text, -, same⟩ := Option.map_eq_some_iff.mp value
    cases same
  | null => cases value
  | boolean => cases value

/-- A column map has no field twice. -/
theorem SpelledBy.nodup_columnMap {root : Document} (spelled : parts.SpelledBy root) :
    (parts.columnMap.map (·.1)).Nodup := by
  obtain ⟨given, -⟩ := spelled
  obtain ⟨-, empty⟩ | ⟨document, -, value⟩ := exists_single? (given .columnMap)
  · have none : parts.columnMap = [] := empty
    rw [none]
    exact List.nodup_nil
  · exact nodup_keys_of_value? value

/-- Whether the parts of a table fit together: types have names, columns have their
names for themselves, and every entry of the column map places its field. -/
structure Consistent (parts : TableDocument) : Prop where
  types : ∀ entry ∈ parts.columns, (ColumnType.ofTag? entry.tag).isSome = true
  names : (parts.columns.map (·.name)).Nodup
  entries : ∀ entry ∈ parts.columnMap, ∃ locator, Places (parts.columns.map (·.name)) entry.2 locator

/-- Whether a column is the one of an entry. -/
structure IsColumn (entry : ColumnEntry) (column : Column) : Prop where
  name : column.name = entry.name
  type : ColumnType.ofTag? entry.tag = some column.type
  description : column.description = entry.description

/-- Whether a table is the one that parts describe. -/
structure Describes (parts : TableDocument) (table : Table) : Prop where
  name : table.name = parts.name
  columns : List.Forall₂ IsColumn parts.columns table.columns
  types : ∀ index : Nat, table.types[index]? = table.columns[index]?.map (·.type)
  placed : ∀ entry ∈ parts.columnMap,
    Places (parts.columns.map (·.name)) entry.2 (table.locate entry.1)
  unplaced : ∀ field, field ∉ parts.columnMap.map (·.1) → table.locate field = .absent
  concatenator : table.concatenator = parts.concatenator.getD "."

/-- A column has the parts of its entry. -/
theorem toColumn_eq_ok_iff {entry : ColumnEntry} {column : Column} :
    entry.toColumn = .ok column ↔ IsColumn entry column := by
  simp only [ColumnEntry.toColumn]
  constructor
  · intro made
    split at made
    · rename_i type known
      cases made
      exact ⟨rfl, known, rfl⟩
    · cases made
  · rintro ⟨name, known, description⟩
    obtain ⟨_, _, _⟩ := column
    cases name
    cases description
    simp only [known]

/-- Columns have the names of their entries, in the same order. -/
theorem names_eq {entries : List ColumnEntry} {columns : List Column}
    (all : List.Forall₂ IsColumn entries columns) :
    columns.map (·.name) = entries.map (·.name) := by
  induction all with
  | nil => rfl
  | cons own _ inductionHypothesis => rw [List.map_cons, List.map_cons, own.name, inductionHypothesis]

/-- How an entry of a column map is resolved. -/
def resolveEntry (table : String) (columns : List Column) (entry : String × Json) :
    Except TableError (String × Locator) := do
  return (entry.1, ← locatorOf table entry.1 columns entry.2)

/-- A table is made of columns and resolved entries. -/
theorem toTable_eq (parts : TableDocument) :
    parts.toTable = parts.columns.mapM ColumnEntry.toColumn >>= fun columns =>
      parts.columnMap.mapM (resolveEntry parts.name columns) >>= fun entries =>
        Table.make parts.name columns (Mapping.ofList entries) (parts.concatenator.getD ".") :=
  rfl

/-- An entry is resolved when its value is. -/
theorem resolveEntry_eq_ok_iff {table : String} {columns : List Column} {entry : String × Json}
    {pair : String × Locator} :
    resolveEntry table columns entry = .ok pair ↔
      entry.1 = pair.1 ∧ locatorOf table entry.1 columns entry.2 = .ok pair.2 := by
  obtain ⟨field, locator⟩ := pair
  rw [resolveEntry, bind_eq_ok_iff]
  constructor
  · rintro ⟨_, made, same⟩
    cases same
    exact ⟨rfl, made⟩
  · rintro ⟨rfl, made⟩
    exact ⟨locator, made, rfl⟩

/-- Resolved entries are for the same fields. -/
theorem fields_eq {table : String} {columns : List Column} {entries : Json.Members}
    {pairs : List (String × Locator)}
    (all : List.Forall₂ (fun entry pair => resolveEntry table columns entry = .ok pair) entries
      pairs) : pairs.map (·.1) = entries.map (·.1) := by
  induction all with
  | nil => rfl
  | cons own _ inductionHypothesis =>
    rw [List.map_cons, List.map_cons, (resolveEntry_eq_ok_iff.mp own).1, inductionHypothesis]

/-- A table that is made of parts is the one that they describe.

Proof: a table is made in three steps: the columns get their types, the entries are
resolved, and both are checked. The steps go item by item, so columns and entries correspond
in order, and the mapping finds for a field the locator of the one entry with its name. -/
theorem describes_of_toTable {table : Table} (distinct : (parts.columnMap.map (·.1)).Nodup)
    (made : parts.toTable = .ok table) : parts.Describes table := by
  rw [toTable_eq] at made
  obtain ⟨columns, typed, made⟩ := bind_eq_ok_iff.mp made
  obtain ⟨pairs, resolved, made⟩ := bind_eq_ok_iff.mp made
  obtain ⟨ownName, ownColumns, ownMapping, ownConcatenator⟩ := Table.make_eq_ok made
  have own : List.Forall₂ IsColumn parts.columns table.columns := by
    rw [ownColumns]
    exact (mapM_eq_ok_iff.mp typed).imp fun entry column => toColumn_eq_ok_iff.mp
  have steps := mapM_eq_ok_iff.mp resolved
  have fields := fields_eq steps
  have names := names_eq own
  refine ⟨ownName, own, fun index => List.getElem?_map .., ?_, ?_, ownConcatenator⟩
  · intro entry member
    obtain ⟨pair, inside, step⟩ := exists_value_of_mem steps member
    obtain ⟨field, located⟩ := resolveEntry_eq_ok_iff.mp step
    have found : table.locate entry.1 = pair.2 := by
      rw [Table.locate, ownMapping, field]
      exact Mapping.locate_ofList_of_mem (fields ▸ distinct) inside
    have placed : locatorOf parts.name entry.1 table.columns entry.2 =
        .ok (table.locate entry.1) := by
      rw [ownColumns, found]
      exact located
    rw [← names]
    exact (locatorOf_iff_places table.nodup_names).mp ⟨placed, table.locate_fits entry.1⟩
  · intro field unnamed
    rw [Table.locate, ownMapping]
    exact Mapping.locate_ofList_of_not_mem (fields ▸ unnamed)

/-- Parts that make a table fit together. -/
theorem Describes.consistent {table : Table} (describes : parts.Describes table) :
    parts.Consistent := by
  refine ⟨?_, ?_, ?_⟩
  · intro entry member
    obtain ⟨column, -, own⟩ := exists_value_of_mem describes.columns member
    exact Option.isSome_iff_exists.mpr ⟨_, own.type⟩
  · rw [← names_eq describes.columns]
    exact table.nodup_names
  · intro entry member
    exact ⟨_, describes.placed entry member⟩

/-- Parts that fit together make a table.

Proof: every column has a type, so all columns are typed; every entry places its field, so
all entries are resolved. The names of the columns differ and the locators suit them, and
these are the checks at the end. -/
theorem Consistent.exists_toTable (consistent : parts.Consistent) :
    ∃ table, parts.toTable = .ok table := by
  obtain ⟨columns, typed⟩ : ∃ columns, parts.columns.mapM ColumnEntry.toColumn = .ok columns := by
    apply exists_mapM_eq_ok
    intro entry member
    obtain ⟨type, known⟩ := Option.isSome_iff_exists.mp (consistent.types entry member)
    exact ⟨⟨entry.name, type, entry.description⟩, toColumn_eq_ok_iff.mpr ⟨rfl, known, rfl⟩⟩
  have names := names_eq ((mapM_eq_ok_iff.mp typed).imp fun entry column => toColumn_eq_ok_iff.mp)
  have distinct : (columns.map (·.name)).Nodup := names ▸ consistent.names
  have placed (entry : String × Json) (member : entry ∈ parts.columnMap) :
      ∃ locator, locatorOf parts.name entry.1 columns entry.2 = .ok locator ∧
        locator.Fits columns.length := by
    obtain ⟨locator, places⟩ := consistent.entries entry member
    exact ⟨locator, (locatorOf_iff_places distinct).mpr (names ▸ places)⟩
  obtain ⟨pairs, resolved⟩ : ∃ pairs,
      parts.columnMap.mapM (resolveEntry parts.name columns) = .ok pairs := by
    apply exists_mapM_eq_ok
    intro entry member
    obtain ⟨locator, made, -⟩ := placed entry member
    exact ⟨(entry.1, locator), resolveEntry_eq_ok_iff.mpr ⟨rfl, made⟩⟩
  have fits (pair : String × Locator) (inside : pair ∈ Mapping.ofList pairs) :
      pair.2.Fits columns.length := by
    obtain ⟨entry, member, step⟩ :=
      exists_source_of_mem (mapM_eq_ok_iff.mp resolved) (Mapping.mem_of_mem_ofList inside)
    obtain ⟨locator, made, suits⟩ := placed entry member
    cases made.symm.trans (resolveEntry_eq_ok_iff.mp step).2
    exact suits
  obtain ⟨table, made⟩ := Table.exists_make_eq_ok_iff.mpr
    (Table.error?_eq_none_iff.mpr ⟨distinct, fits⟩)
  refine ⟨table, ?_⟩
  rw [toTable_eq]
  exact bind_eq_ok_iff.mpr ⟨columns, typed, bind_eq_ok_iff.mpr ⟨pairs, resolved, made⟩⟩

/-- A document of the expected form is loaded exactly when its parts fit together: every
type has a name, no two columns share one, and every entry of the column map is null, a
reference to a column, a list of at least one, or an object of references. The table then
has the columns in their order with their types, and every field stands where its entry
says, fields without an entry nowhere.

Proof: the document is read as the parts that it spells, so loading is making a table of
them. A table that is made is the one they describe, which they can only do if they fit
together; and parts that fit together make a table. -/
theorem tables_load_when_consistent {text : String} {root : Document} {parts : TableDocument}
    (read : Json.Source.ofText text = ⟨some root, true⟩) (spelled : parts.SpelledBy root) :
    ((∃ table, Table.ofText text = .ok table) ↔ parts.Consistent) ∧
      ∀ table, Table.ofText text = .ok table → parts.Describes table := by
  obtain ⟨unknownKeys, document⟩ := exists_ofDocument? spelled
  have loaded : Table.ofText text = parts.toTable := by
    simp only [Table.ofText, ofText?, read, document]
    rfl
  have describes (table : Table) (made : Table.ofText text = .ok table) : parts.Describes table :=
    describes_of_toTable spelled.nodup_columnMap (loaded.symm.trans made)
  refine ⟨⟨?_, ?_⟩, describes⟩
  · rintro ⟨table, made⟩
    exact (describes table made).consistent
  · intro consistent
    obtain ⟨table, made⟩ := consistent.exists_toTable
    exact ⟨table, loaded.trans made⟩

/-- A document with its keys out of order and a column in the form of a list. -/
def visitsText : String :=
  "\x7b\"columns\":[\x7b\"type\":\"str\",\"name\":\"who\"\x7d,[\"level\",\"int\",null]]," ++
    "\"column_map\":\x7b\"score\":[\"level\",0],\"user_id\":null\x7d,\"table\":\"visits\"\x7d"

/-- The members of this document. -/
def visitsMembers : List (String × Document) :=
  [("columns", .list [.object [(some "type", .text (some "str")), (some "name", .text (some "who"))] true,
      .list [.text (some "level"), .text (some "int"), .null] true] true),
    ("column_map", .object [(some "score", .list [.text (some "level"),
      .number ⟨false, ['0'], [], 0, true⟩] true), (some "user_id", .null)] true),
    ("table", .text (some "visits"))]

/-- The parts that it spells. -/
def visits : TableDocument where
  name := "visits"
  columns := [⟨"who", "str", none⟩, ⟨"level", "int", none⟩]
  columnMap := [("score", .list [.text "level", .number (.integer 0)]), ("user_id", .null)]
  concatenator := none
  unknownKeys := []

/-- The document is loaded, the table is the one that its parts describe, and a field
without an entry stands nowhere. -/
theorem tables_load_when_consistent_visits :
    ∃ table, Table.ofText visitsText = .ok table ∧ visits.Describes table ∧
      table.locate "session_id" = .absent := by
  have read : Json.Source.ofText visitsText =
      ⟨some (.object (visitsMembers.map fun member => (some member.1, member.2)) true), true⟩ := by
    cbv
  have spelled : visits.SpelledBy
      (.object (visitsMembers.map fun member => (some member.1, member.2)) true) := by
    have known : ∀ member ∈ visitsMembers, member.1 ∈ knownKeys := by decide
    refine .object ?_ fun member inside unknown => absurd (known member inside) unknown
    intro part
    cases part with
    | table => exact .value rfl
    | columns =>
      refine .value ⟨_, rfl, .cons (.object (by decide) ?_) (.cons (.list rfl rfl .null) .nil)⟩
      intro part
      cases part with
      | name => exact .value rfl
      | type => exact .value rfl
      | description => exact .leftOut ⟨rfl, rfl⟩
    | columnMap =>
      have zero : (⟨false, ['0'], [], 0, true⟩ : Json.NumberSpelling).value? =
          some (.integer 0) := by decide
      have entries : Json.ofPairs visits.columnMap = visits.columnMap := by
        rw [Json.ofPairs_eq_putAll]
        rfl
      refine .value ?_
      simpa [SpelledPart, Document.value?, Document.memberValues?, Document.itemValues?, zero,
        Json.depthLimit, visits] using entries
    | concatenator => exact .leftOut rfl
  have consistent : visits.Consistent := by
    refine ⟨by decide, by decide, ?_⟩
    intro entry member
    rcases List.mem_cons.mp member with rfl | later
    · refine ⟨.list [1, 0], .list nofun (.cons (.name ?_) (.cons (.position ?_) .nil))⟩
      · intro other
        rcases other with _ | _ | other
        · decide
        · decide
        · simp [visits]
      · decide
    · rcases List.mem_cons.mp later with rfl | none
      · exact ⟨.absent, .absent⟩
      · cases none
  obtain ⟨loads, describes⟩ := tables_load_when_consistent read spelled
  obtain ⟨table, made⟩ := loads.mpr consistent
  have described := describes table made
  exact ⟨table, made, described, described.unplaced "session_id" (by decide)⟩

end TableDocument

end EventSieve
