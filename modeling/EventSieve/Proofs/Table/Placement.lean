import EventSieve.Proofs.Traversal
import EventSieve.Table.Document

/-!
# What the entries of a column map say

An entry of a column map says where a field stands without a word about how it is
resolved: null leaves the field absent, a reference gives one column, a list of
references at least one, and an object one for each of its keys. A reference is a
position below the number of columns, or a name that exactly one column has.

Resolving an entry looks only for the first column of a name and takes a position as
it is; the rest is left to the checks of the whole table. Where no two columns share a
name the two agree: an entry is resolved to a locator that passes these checks exactly
when the entry says so.
-/

namespace EventSieve

/-- Whether a value of a column map refers to the column at a position: by the name
that this column and no other has, or by the position. -/
inductive Refers (names : List String) : Json → Nat → Prop
  | name {column : String} {index : Nat}
      (only : ∀ other, names[other]? = some column ↔ other = index) :
      Refers names (.text column) index
  | position {index : Nat} (inside : index < names.length) :
      Refers names (.number (.integer index)) index

/-- Whether an entry of a column map places a field as a locator does, with the order
of lists and of keys. -/
inductive Places (names : List String) : Json → Locator → Prop
  | absent : Places names .null .absent
  | single {entry : Json} {index : Nat} (refers : Refers names entry index) :
      Places names entry (.single index)
  | list {items : List Json} {indices : List Nat} (present : items ≠ [])
      (refer : List.Forall₂ (Refers names) items indices) :
      Places names (.list items) (.list indices)
  | dict {members : Json.Members} {pairs : List (String × Nat)}
      (refer : List.Forall₂ (fun member pair => member.1 = pair.1 ∧ Refers names member.2 pair.2)
        members pairs) :
      Places names (.object members) (.dict pairs)

namespace TableDocument

variable {table field : String} {columns : List Column}

/-- Where no two columns share a name, the first column of a name is the only one. The
search stops at the first column with the name. Another one behind it would share the name
with it. -/
theorem positionIn?_eq_some_iff (distinct : (columns.map (·.name)).Nodup) {column : String}
    {index : Nat} :
    Table.positionIn? columns column = some index ↔
      ∀ other, (columns.map (·.name))[other]? = some column ↔ other = index := by
  constructor
  · intro found
    obtain ⟨inside, own, -⟩ := List.findIdx?_eq_some_iff_getElem.mp found
    have here : (columns.map (·.name))[index]? = some column := by
      simpa [List.getElem?_eq_getElem inside] using own
    intro other
    constructor
    · intro there
      have below : index < (columns.map (·.name)).length := by simpa using inside
      exact ((List.getElem?_inj below distinct).mp (here.trans there.symm)).symm
    · rintro rfl
      exact here
  · intro only
    have here := (only index).mpr rfl
    cases found : Table.positionIn? columns column with
    | none =>
      have none := List.findIdx?_eq_none_iff.mp found
      obtain ⟨own, member, same⟩ := List.mem_map.mp (List.mem_of_getElem? here)
      exact absurd (none own member) (by simp [same])
    | some position =>
      obtain ⟨inside, own, -⟩ := List.findIdx?_eq_some_iff_getElem.mp found
      have there : (columns.map (·.name))[position]? = some column := by
        simpa [List.getElem?_eq_getElem inside] using own
      rw [(only position).mp there]

/-- The value of a column map that gives a reference. -/
def Reference.toJson : Reference → Json
  | .index position => .number (.integer position)
  | .name column => .text column

/-- A value gives a reference exactly when it is the value of the reference. -/
theorem Reference.ofJson?_eq_some_iff {entry : Json} {reference : Reference} :
    Reference.ofJson? entry = some reference ↔ entry = reference.toJson := by
  constructor
  · intro read
    simp only [ofJson?] at read
    split at read
    · split at read
      · rename_i value positive
        cases read
        rw [toJson, Int.toNat_of_nonneg positive]
      · cases read
    · cases read
      rfl
    · cases read
  · rintro rfl
    cases reference with
    | index position => simp [toJson, ofJson?]
    | name column => rfl

/-- Whether a value is a reference that is resolved to a position. -/
def Resolves (table field : String) (columns : List Column) (entry : Json) (index : Nat) : Prop :=
  ∃ reference, Reference.ofJson? entry = some reference ∧
    reference.resolve table field columns = .ok index

/-- A value is resolved to the position of a column exactly when it refers to it. A number
refers to a position by itself, and a text to the one column of that name. -/
theorem resolves_iff_refers (distinct : (columns.map (·.name)).Nodup) {entry : Json}
    {index : Nat} :
    Resolves table field columns entry index ∧ index < columns.length ↔
      Refers (columns.map (·.name)) entry index := by
  constructor
  · rintro ⟨⟨reference, read, resolved⟩, inside⟩
    obtain rfl := Reference.ofJson?_eq_some_iff.mp read
    cases reference with
    | index position =>
      cases resolved
      exact .position (by rwa [List.length_map])
    | name column =>
      apply Refers.name
      apply (positionIn?_eq_some_iff distinct).mp
      simp only [Reference.resolve] at resolved
      split at resolved
      · rename_i position found
        cases resolved
        exact found
      · cases resolved
  · intro refers
    cases refers with
    | @name column index only =>
      have found := (positionIn?_eq_some_iff distinct).mpr only
      refine ⟨⟨.name column, rfl, ?_⟩, (List.findIdx?_eq_some_iff_getElem.mp found).1⟩
      simp only [Reference.resolve, found]
    | position inside =>
      rw [List.length_map] at inside
      exact ⟨⟨.index index, Reference.ofJson?_eq_some_iff.mpr rfl, rfl⟩, inside⟩

/-- Reading all references and then resolving them is resolving each of them. -/
theorem resolves_all_iff {items : List Json} {indices : List Nat} :
    List.Forall₂ (Resolves table field columns) items indices ↔
      ∃ references, items.mapM Reference.ofJson? = some references ∧
        references.mapM (Reference.resolve table field columns) = .ok indices := by
  simp only [mapM_eq_some_iff, mapM_eq_ok_iff]
  exact forall₂_passes_iff.symm

/-- A list is resolved when its items are references that are. -/
theorem locatorOf_list_iff {items : List Json} {locator : Locator} :
    locatorOf table field columns (.list items) = .ok locator ↔
      ∃ indices, List.Forall₂ (Resolves table field columns) items indices ∧
        locator = .list indices := by
  simp only [resolves_all_iff, locatorOf]
  cases items.mapM Reference.ofJson? with
  | none => simp
  | some references =>
    constructor
    · intro made
      obtain ⟨indices, resolved, same⟩ := bind_eq_ok_iff.mp made
      cases same
      exact ⟨indices, ⟨references, rfl, resolved⟩, rfl⟩
    · rintro ⟨indices, ⟨_, same, resolved⟩, rfl⟩
      cases same
      exact bind_eq_ok_iff.mpr ⟨indices, resolved, rfl⟩

/-- How a member of an object is resolved; its key stays. -/
def resolveMember (table field : String) (columns : List Column) (member : String × Json) :
    Except TableError (String × Nat) :=
  match Reference.ofJson? member.2 with
  | some reference => do return (member.1, ← reference.resolve table field columns)
  | none => .error (.invalidLocator field (.unsupportedReference member.1))

/-- A member is resolved when its value is a reference that is. -/
theorem resolveMember_eq_ok_iff {member : String × Json} {pair : String × Nat} :
    resolveMember table field columns member = .ok pair ↔
      member.1 = pair.1 ∧ Resolves table field columns member.2 pair.2 := by
  obtain ⟨key, index⟩ := pair
  simp only [resolveMember, Resolves]
  cases Reference.ofJson? member.2 with
  | none => simp
  | some reference =>
    constructor
    · intro made
      obtain ⟨position, resolved, same⟩ := bind_eq_ok_iff.mp made
      cases same
      exact ⟨rfl, reference, rfl, resolved⟩
    · rintro ⟨rfl, _, same, resolved⟩
      cases same
      exact bind_eq_ok_iff.mpr ⟨index, resolved, rfl⟩

/-- An object is resolved when its values are references that are; the keys stay. -/
theorem locatorOf_object_iff {members : Json.Members} {locator : Locator} :
    locatorOf table field columns (.object members) = .ok locator ↔
      ∃ pairs, List.Forall₂ (fun member pair => member.1 = pair.1 ∧
          Resolves table field columns member.2 pair.2) members pairs ∧
        locator = .dict pairs := by
  have opened : locatorOf table field columns (.object members) =
      members.mapM (resolveMember table field columns) >>= fun pairs => .ok (.dict pairs) := rfl
  rw [opened, bind_eq_ok_iff]
  simp only [mapM_eq_ok_iff, resolveMember_eq_ok_iff, Except.ok.injEq, @eq_comm _ _ locator]

/-- How a value that is neither null nor a container is resolved. -/
def resolveScalar (table field : String) (columns : List Column) (entry : Json) :
    Except TableError Locator :=
  match Reference.ofJson? entry with
  | some reference => do return .single (← reference.resolve table field columns)
  | none => .error (.invalidLocator field .unsupportedEntry)

/-- Such a value is resolved when it is a reference that is. -/
theorem resolveScalar_eq_ok_iff {entry : Json} {locator : Locator} :
    resolveScalar table field columns entry = .ok locator ↔
      ∃ index, Resolves table field columns entry index ∧ locator = .single index := by
  simp only [resolveScalar, Resolves]
  cases Reference.ofJson? entry with
  | none => simp
  | some reference =>
    constructor
    · intro made
      obtain ⟨index, resolved, same⟩ := bind_eq_ok_iff.mp made
      cases same
      exact ⟨index, ⟨reference, rfl, resolved⟩, rfl⟩
    · rintro ⟨index, ⟨_, same, resolved⟩, rfl⟩
      cases same
      exact bind_eq_ok_iff.mpr ⟨index, resolved, rfl⟩

/-- References are resolved to positions of columns exactly when each of them refers to
its column. -/
theorem resolves_all_iff_refers (distinct : (columns.map (·.name)).Nodup) {items : List Json}
    {indices : List Nat} :
    List.Forall₂ (Resolves table field columns) items indices ∧
        (∀ index ∈ indices, index < columns.length) ↔
      List.Forall₂ (Refers (columns.map (·.name))) items indices := by
  rw [← forall₂_and_right_iff]
  simp only [resolves_iff_refers distinct]

/-- The same holds of references that stand behind keys. -/
theorem resolves_members_iff_refers (distinct : (columns.map (·.name)).Nodup)
    {members : Json.Members} {pairs : List (String × Nat)} :
    List.Forall₂ (fun member pair => member.1 = pair.1 ∧
          Resolves table field columns member.2 pair.2) members pairs ∧
        (∀ index ∈ pairs.map (·.2), index < columns.length) ↔
      List.Forall₂ (fun member pair => member.1 = pair.1 ∧
        Refers (columns.map (·.name)) member.2 pair.2) members pairs := by
  rw [List.forall_mem_map, ← forall₂_and_right_iff]
  simp only [and_assoc, resolves_iff_refers distinct]

/-- A value that is neither null nor a container places its field in the column that it
refers to. -/
theorem scalar_iff_places (distinct : (columns.map (·.name)).Nodup) {entry : Json}
    {locator : Locator}
    (scalar : locatorOf table field columns entry = resolveScalar table field columns entry)
    (single : Places (columns.map (·.name)) entry locator → ∃ index, locator = .single index) :
    locatorOf table field columns entry = .ok locator ∧ locator.Fits columns.length ↔
      Places (columns.map (·.name)) entry locator := by
  rw [scalar, resolveScalar_eq_ok_iff]
  constructor
  · rintro ⟨⟨index, resolved, rfl⟩, fits⟩
    have inside := fits.2 index (List.mem_singleton.mpr rfl)
    exact .single ((resolves_iff_refers distinct).mp ⟨resolved, inside⟩)
  · intro places
    obtain ⟨index, rfl⟩ := single places
    cases places with
    | single refers =>
      obtain ⟨resolved, inside⟩ := (resolves_iff_refers distinct).mpr refers
      refine ⟨⟨index, resolved, rfl⟩, nofun, ?_⟩
      intro other member
      rwa [List.mem_singleton.mp member]

/-- A list places its field in the columns that its items refer to. The items are resolved
one by one, and a list without items suits no table. -/
theorem list_iff_places (distinct : (columns.map (·.name)).Nodup) {items : List Json}
    {locator : Locator} :
    locatorOf table field columns (.list items) = .ok locator ∧ locator.Fits columns.length ↔
      Places (columns.map (·.name)) (.list items) locator := by
  rw [locatorOf_list_iff]
  constructor
  · rintro ⟨⟨indices, resolved, rfl⟩, present, inside⟩
    refine .list ?_ ((resolves_all_iff_refers distinct).mp ⟨resolved, inside⟩)
    rintro rfl
    cases resolved
    exact present rfl
  · intro places
    cases places with
    | single refers => cases refers
    | list present refer =>
      obtain ⟨resolved, inside⟩ := (resolves_all_iff_refers distinct).mpr refer
      refine ⟨⟨_, resolved, rfl⟩, ?_, inside⟩
      intro empty
      cases empty
      cases resolved
      exact present rfl

/-- An object places its field in the columns that its values refer to, key by key. -/
theorem object_iff_places (distinct : (columns.map (·.name)).Nodup) {members : Json.Members}
    {locator : Locator} :
    locatorOf table field columns (.object members) = .ok locator ∧ locator.Fits columns.length ↔
      Places (columns.map (·.name)) (.object members) locator := by
  rw [locatorOf_object_iff]
  constructor
  · rintro ⟨⟨pairs, resolved, rfl⟩, -, inside⟩
    exact .dict ((resolves_members_iff_refers distinct).mp ⟨resolved, inside⟩)
  · intro places
    cases places with
    | single refers => cases refers
    | dict refer =>
      obtain ⟨resolved, inside⟩ := (resolves_members_iff_refers distinct).mpr refer
      exact ⟨⟨_, resolved, rfl⟩, nofun, inside⟩

/-- An entry is resolved to a locator that suits the columns exactly when it places its
field so. The cases follow the form of the entry. A value that is neither null nor a
container is a single reference. -/
theorem locatorOf_iff_places (distinct : (columns.map (·.name)).Nodup) {entry : Json}
    {locator : Locator} :
    locatorOf table field columns entry = .ok locator ∧ locator.Fits columns.length ↔
      Places (columns.map (·.name)) entry locator := by
  cases entry with
  | null =>
    constructor
    · rintro ⟨made, -⟩
      cases made
      exact .absent
    · intro places
      cases places with
      | absent => exact ⟨rfl, nofun, fun index member => absurd member List.not_mem_nil⟩
      | single refers => cases refers
  | boolean value =>
    apply scalar_iff_places distinct rfl
    rintro (_ | refers)
    exact ⟨_, rfl⟩
  | number value =>
    apply scalar_iff_places distinct rfl
    rintro (_ | refers)
    exact ⟨_, rfl⟩
  | text column =>
    apply scalar_iff_places distinct rfl
    rintro (_ | refers)
    exact ⟨_, rfl⟩
  | list items => exact list_iff_places distinct
  | object members => exact object_iff_places distinct

end TableDocument

end EventSieve
