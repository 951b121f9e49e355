import EventSieve.Proofs.Filter.Spelling

/-!
# The collections that documents spell

A document spells a collection by groups of fields, in any order and under any of their
spellings. A field that restricts nothing may be left out, and so may a group of such
fields. Every document of at most the greatest size that spells a valid collection
without too many elements and without a range that has no bounds is read as this
collection, and no other collections are read from documents.
-/

namespace EventSieve

open EventSieve.Filter (Axis Domain Draft Field SpelledFilter)
open Json (Document Given valuesOf)

namespace Filter

/-- The spellings of the key of a field. -/
def Field.spellings (field : Field) : List String :=
  field.name :: (Axis.otherName? field).toList

/-- The spellings of the key of a group. -/
def Axis.spellings : Axis → List String
  | .identity => ["identity"]
  | .sequencing => ["sequencing"]
  | .versions => ["versions", "version"]
  | .events => ["events", "event"]

/-- A spelling belongs to one field. -/
theorem Field.eq_of_mem_spellings {field other : Field} {key : String}
    (own : key ∈ field.spellings) (also : key ∈ other.spellings) : field = other := by
  have apart : ∀ field ∈ Field.all, ∀ other ∈ Field.all, ∀ key ∈ field.spellings,
      key ∈ other.spellings → field = other := by decide
  exact apart field field.mem_all other other.mem_all key own also

/-- A field belongs to one group. -/
theorem Axis.eq_of_mem_fields {group other : Axis} {field : Field} (own : field ∈ group.fields)
    (also : field ∈ other.fields) : group = other := by
  cases group <;> cases other <;> first | rfl | (cases field <;> simp [fields] at own also)

/-- Every field belongs to a group. -/
theorem Axis.exists_mem_fields (field : Field) : ∃ group : Axis, field ∈ group.fields := by
  cases field with
  | session | player => exact ⟨.identity, by decide⟩
  | timestamp | sessionIndex => exact ⟨.sequencing, by decide⟩
  | logVersion | appVersion | appBranch => exact ⟨.versions, by decide⟩
  | eventName | eventCode => exact ⟨.events, by decide⟩

end Filter

namespace FilterCollection

variable {collection : FilterCollection}

/-- Whether a document spells the filters of a group: an object with the keys of its
fields in any order. -/
inductive SpelledAxis (collection : FilterCollection) (group : Axis) : Document → Prop
  | object {members : List (Option String × Document)}
      (keys : ∀ member ∈ members, ∃ key, member.1 = some key ∧
        ∃ field ∈ group.fields, key ∈ Field.spellings field)
      (given : ∀ field ∈ group.fields, Given (collection.filter field = .unrestricted)
        (SpelledFilter (collection.filter field)) (valuesOf field.spellings members)) :
      SpelledAxis collection group (.object members true)

/-- Whether a document spells a collection: an object with the keys of the groups in any
order. -/
inductive SpelledBy (collection : FilterCollection) : Document → Prop
  | object {members : List (Option String × Document)}
      (keys : ∀ member ∈ members, ∃ key, member.1 = some key ∧ ∃ group, key ∈ Axis.spellings group)
      (given : ∀ group : Axis,
        Given (∀ field ∈ group.fields, collection.filter field = .unrestricted)
          (collection.SpelledAxis group) (valuesOf group.spellings members)) :
      SpelledBy collection (.object members true)

/-- Whether no filter is a range without bounds. -/
def IsBounded (collection : FilterCollection) : Prop :=
  ∀ field range, collection.filter field = .range range → range.isUnbounded = false

/-- The spellings of a field as far as it belongs to a group. -/
def spellingsIn (group : Axis) (field : Field) : List String :=
  if field ∈ group.fields then field.spellings else []

/-- A field of a group has all of its spellings there. -/
theorem spellingsIn_of_mem {group : Axis} {field : Field} (inside : field ∈ group.fields) :
    spellingsIn group field = field.spellings :=
  if_pos inside

/-- A key names a field when it is one of its spellings. -/
theorem names_iff_mem_spellings {field : Field} {key : String} :
    (key = field.name || some key = Axis.otherName? field) = true ↔ key ∈ field.spellings := by
  rw [Field.spellings, List.mem_cons, Option.mem_toList, Bool.or_eq_true, decide_eq_true_eq,
    decide_eq_true_eq]
  exact or_congr Iff.rfl eq_comm

/-- A key names the field of a group that it spells. -/
theorem fieldNamed?_eq_some_iff {group : Axis} {key : String} {field : Field} :
    group.fieldNamed? key = some field ↔ field ∈ group.fields ∧ key ∈ field.spellings := by
  constructor
  · intro named
    rw [Axis.fieldNamed?] at named
    have found := List.find?_some named
    exact ⟨List.mem_of_find?_eq_some named, names_iff_mem_spellings.mp found⟩
  · rintro ⟨inside, spelled⟩
    obtain ⟨other, named⟩ : ∃ other, group.fieldNamed? key = some other :=
      Option.isSome_iff_exists.mp
        (List.find?_isSome.mpr ⟨field, inside, names_iff_mem_spellings.mpr spelled⟩)
    have again := named
    rw [Axis.fieldNamed?] at again
    have found := List.find?_some again
    rw [Field.eq_of_mem_spellings spelled (names_iff_mem_spellings.mp found)]
    exact named

/-- The reader of a group knows its fields by their spellings. -/
theorem axisReader_spelledBy (group : Axis) : group.reader.SpelledBy (spellingsIn group) := by
  intro key field
  refine fieldNamed?_eq_some_iff.trans ?_
  by_cases inside : field ∈ group.fields
  · rw [spellingsIn_of_mem inside]
    exact and_iff_right inside
  · rw [spellingsIn, if_neg inside]
    exact iff_of_false (fun both => inside both.1) List.not_mem_nil

/-- The reader of collections knows the groups by their spellings. -/
theorem collectionReader_spelledBy : Axis.collectionReader.SpelledBy Axis.spellings := by
  intro key group
  change Axis.named? key = some group ↔ key ∈ group.spellings
  cases group <;>
    simp only [Axis.named?, Axis.spellings, List.mem_singleton, List.mem_pair] <;> grind

/-- Whether nothing restricts the fields of a group. -/
def Blank (group : Axis) (state : FilterCollection) : Prop :=
  ∀ field ∈ group.fields, state.filter field = .unrestricted

/-- Whether the filters of a group are those of a collection. -/
def Filled (collection : FilterCollection) (group : Axis) (state : FilterCollection) : Prop :=
  ∀ field ∈ group.fields, state.filter field = collection.filter field

/-- Whether the filter of a field is that of a collection. -/
def Agrees (collection : FilterCollection) (field : Field) (state : FilterCollection) : Prop :=
  state.filter field = collection.filter field

/-- The filter of a field is read from what spells it, and the others do not change. -/
theorem takes_spelledFilter (bounded : collection.IsBounded) {group : Axis} {field : Field}
    {document : Document} {depth : Nat} (deep : 2 < depth)
    (spelled : SpelledFilter (collection.filter field) document) {before after : FilterCollection}
    (same : collection.filter field = after.filter field) :
    group.reader.Takes depth (Agrees before) (Agrees after) field document := by
  intro state _
  refine ⟨state.set field (collection.filter field), ?_, ?_, ?_⟩
  · have read := Filter.ofDocument_of_spelledFilter deep (bounded field) spelled
    change Axis.visitField depth state field document = _
    rw [Axis.visitField, read]
    rfl
  · rw [Agrees, filter_set_same, same]
  · intro other apart
    simp only [Agrees, filter_set_other _ _ apart.symm]
    exact ⟨id, id⟩

/-- A collection with the filters of a group from another one. -/
def withGroup (state : FilterCollection) (group : Axis) (collection : FilterCollection) :
    FilterCollection where
  filter field := if field ∈ group.fields then collection.filter field else state.filter field

/-- The filters of the group are those of the other collection. -/
theorem withGroup_of_mem {group : Axis} {field : Field} (inside : field ∈ group.fields)
    (state : FilterCollection) :
    (state.withGroup group collection).filter field = collection.filter field :=
  if_pos inside

/-- All other filters stay. -/
theorem withGroup_of_not_mem {group : Axis} {field : Field} (outside : field ∉ group.fields)
    (state : FilterCollection) :
    (state.withGroup group collection).filter field = state.filter field :=
  if_neg outside

/-- The filters of a group are read from what spells them, and those of other fields do not
change. The reader takes one member after the other. Its state agrees with what is to be
read on the fields that have been given, and with what was there before on all others,
fields outside of the group included. -/
theorem exists_visitAxis (bounded : collection.IsBounded) {group : Axis} {document : Document}
    {depth : Nat} (deep : 3 < depth) (spelled : collection.SpelledAxis group document)
    {state : FilterCollection} (blank : Blank group state) :
    ∃ next, Axis.visitAxis depth state group document = .ok next ∧
      ∀ field, Agrees (state.withGroup group collection) field next := by
  obtain ⟨keys, given⟩ := spelled
  rename_i members
  have known : ∀ member ∈ members, ∃ key, member.1 = some key ∧
      (group.reader.skipsUnknown = true ∨ ∃ field, key ∈ spellingsIn group field) := by
    intro member listed
    obtain ⟨key, same, field, inside, spelled⟩ := keys member listed
    exact ⟨key, same, Or.inr ⟨field, by rwa [spellingsIn_of_mem inside]⟩⟩
  -- A field outside of the group has no spelling here, so it counts as left out.
  have parts (field : Field) :
      Given ((state.withGroup group collection).filter field = state.filter field)
        (fun document => collection.filter field = (state.withGroup group collection).filter field ∧
          SpelledFilter (collection.filter field) document)
        (valuesOf (spellingsIn group field) members) := by
    by_cases inside : field ∈ group.fields
    · rw [spellingsIn_of_mem inside, withGroup_of_mem inside, blank field inside]
      exact (given field inside).imp id fun document spelled => ⟨rfl, spelled⟩
    · rw [spellingsIn, if_neg inside, Json.valuesOf_nil]
      exact .leftOut (withGroup_of_not_mem inside state)
  exact Json.FieldReader.exists_read (Agrees state) (Agrees (state.withGroup group collection))
    (axisReader_spelledBy group) (by omega : 1 < depth) known parts
    (fun field document means => takes_spelledFilter bounded (by omega) means.2 means.1)
    (fun field next may same => same.trans may.symm) (fun field => rfl)

/-- The filters of a group are read from what spells them, and those of other groups do
not change. -/
theorem takes_spelledAxis (bounded : collection.IsBounded) {group : Axis} {document : Document}
    {depth : Nat} (deep : 3 < depth) (spelled : collection.SpelledAxis group document) :
    Axis.collectionReader.Takes depth Blank (Filled collection) group document := by
  intro state blank
  obtain ⟨next, visited, agrees⟩ := exists_visitAxis bounded deep spelled blank
  refine ⟨next, visited, ?_, ?_⟩
  · intro field inside
    exact (agrees field).trans (withGroup_of_mem inside state)
  · intro other apart
    have same (field : Field) (inside : field ∈ other.fields) :
        next.filter field = state.filter field := by
      have outside : field ∉ group.fields := fun also => apart (Axis.eq_of_mem_fields inside also)
      exact (agrees field).trans (withGroup_of_not_mem outside state)
    exact ⟨fun blank field inside => (same field inside).trans (blank field inside),
      fun filled field inside => (same field inside).trans (filled field inside)⟩

/-- A collection is read from what spells it. The members are groups, each of which fills
the fields of its own and touches no others; a group that is left out stays as empty as it
was. Every field belongs to a group, so nothing else is left. -/
theorem ofDocument_of_spelledBy (bounded : collection.IsBounded) {root : Document}
    (spelled : collection.SpelledBy root) : ofDocument root = .ok collection := by
  obtain ⟨keys, given⟩ := spelled
  rename_i members
  have known : ∀ member ∈ members, ∃ key, member.1 = some key ∧
      (Axis.collectionReader.skipsUnknown = true ∨ ∃ group, key ∈ Axis.spellings group) := by
    intro member inside
    obtain ⟨key, same, group⟩ := keys member inside
    exact ⟨key, same, Or.inr group⟩
  have stays : ∀ group state, (∀ field ∈ Axis.fields group, collection.filter field = .unrestricted) →
      Blank group state → Filled collection group state := by
    intro group state unrestricted blank field inside
    rw [blank field inside, unrestricted field inside]
  obtain ⟨last, read, filled⟩ := Json.FieldReader.exists_read Blank (Filled collection)
    collectionReader_spelledBy (by decide : 1 < Json.depthLimit) known given
    (fun group document => takes_spelledAxis bounded (by decide)) stays
    (fun group field _ => rfl : ∀ group, Blank group empty)
  have same : last = collection := by
    obtain ⟨filters⟩ := last
    obtain ⟨others⟩ := collection
    congr
    funext field
    obtain ⟨group, inside⟩ := Axis.exists_mem_fields field
    exact filled group field inside
  rw [ofDocument, read, same]

/-- No filter of a document is a range without bounds. -/
theorem isUnbounded_of_ofDocument {domain : Domain} {depth : Nat} {document : Document}
    {range : RangeFilter domain}
    (made : Filter.ofDocument domain depth document = .ok (.range range)) :
    range.isUnbounded = false := by
  obtain ⟨draft, -, filter⟩ := bind_eq_ok_iff.mp made
  simp only [Draft.toFilter] at filter
  split at filter
  · split at filter
    · cases filter
    · cases filter
  · simp only [Filter.ofRange] at filter
    split at filter
    · cases filter
    · rename_i limited
      cases filter
      exact Bool.eq_false_iff.mpr limited

/-- No range without bounds is read from a document. A draft without bounds becomes no range
when it is read, and visiting the other fields and groups keeps what has been read. -/
theorem isBounded_of_ofDocument {root : Document} (made : ofDocument root = .ok collection) :
    collection.IsBounded := by
  have field (depth : Nat) (state : FilterCollection) (field : Field) (document : Document)
      (next : FilterCollection) (bounded : state.IsBounded)
      (visited : Axis.visitField depth state field document = .ok next) : next.IsBounded := by
    obtain ⟨filter, read, same⟩ := bind_eq_ok_iff.mp visited
    cases same
    intro other range own
    by_cases apart : field = other
    · subst apart
      rw [filter_set_same] at own
      rw [own] at read
      exact isUnbounded_of_ofDocument read
    · rw [filter_set_other _ _ apart] at own
      exact bounded other range own
  have group (depth : Nat) (state : FilterCollection) (group : Axis) (document : Document)
      (next : FilterCollection) (bounded : state.IsBounded)
      (visited : Axis.visitAxis depth state group document = .ok next) : next.IsBounded :=
    Json.FieldReader.keeps_read field bounded visited
  have start : empty.IsBounded := fun field range own => by cases own
  exact Json.FieldReader.keeps_read group start made

/-- No collection with a range without bounds is read from a text. -/
theorem isBounded_of_ofJsonText {text : String} (made : ofJsonText text = .ok collection) :
    collection.IsBounded := by
  simp only [ofJsonText] at made
  split at made
  · obtain ⟨other, spelled, ended⟩ := bind_eq_ok_iff.mp made
    split at ended
    · cases ended
      exact isBounded_of_ofDocument spelled
    · cases ended
  · cases made

/-- Filter documents spell exactly the valid collections. A document of at most 65536 bytes
that spells a valid collection with at most 10000 set elements and no range without bounds
is read as it, and every collection that is read is such a collection.

Proof: the spelling is a relation that knows nothing of the reader: names and aliases in any
order, sets with repetitions, parts that are left out or null. The reader is shown to follow
it from the values up to the groups, with what has been read so far as the state of an
induction along the members. The limits and the validation of the second part are the tests
that stand before and behind the reading. -/
theorem documents_spell_valid_collections :
    (∀ (collection : FilterCollection) (text : String) (root : Document),
      collection.validate = .ok () → collection.IsBounded → collection.elementCount ≤ 10000 →
      text.utf8ByteSize ≤ 65536 → Json.Source.ofText text = ⟨some root, true⟩ →
      collection.SpelledBy root → read text = .ok collection) ∧
    ∀ (text : String) (collection : FilterCollection), read text = .ok collection →
      collection.validate = .ok () ∧ collection.IsBounded ∧ collection.elementCount ≤ 10000 := by
  constructor
  · intro collection text root valid bounded few small source spelled
    have made : ofJsonText text = .ok collection := by
      simp only [ofJsonText, source, ofDocument_of_spelledBy bounded spelled]
      rfl
    exact read_eq_ok_iff.mpr ⟨small, made, few, valid⟩
  · intro text collection made
    obtain ⟨-, spelled, few, valid⟩ := read_eq_ok_iff.mp made
    exact ⟨valid, isBounded_of_ofJsonText spelled, few⟩

/-- A document with a code that is given twice and a moment at an offset. -/
def momentsText : String :=
  "\x7b\"event\":\x7b\"eventCode\":\x7b\"set\":[2,1,2]\x7d\x7d,\"sequencing\":" ++
    "\x7b\"timestamp\":\x7b\"max\":\"2024-01-01t00:00:00.5+01:00\"\x7d\x7d\x7d"

/-- An integer of one digit as it stands in a document. -/
def digitDocument (digit : Char) : Document := .number ⟨false, [digit], [], 0, true⟩

/-- The tree of this document. -/
def momentsRoot : Document :=
  .object [(some "event", .object [(some "eventCode", .object [(some "set",
      .list [digitDocument '2', digitDocument '1', digitDocument '2'] true)] true)] true),
    (some "sequencing", .object [(some "timestamp",
      .object [(some "max", .text (some "2024-01-01t00:00:00.5+01:00"))] true)] true)] true

/-- The codes of this document. -/
def momentsCodes : Filter.ElementSet .integer := ⟨[1, 2], by decide, trivial⟩

/-- The moment of this document. -/
def moment : Time.Instant := ⟨1704063600, 500000000, by decide⟩

/-- The timestamp of this moment in the document. -/
def momentsTimestamp : Time.Timestamp :=
  ⟨2024, 1, 1, 't', 0, 0, 0, ['5'], .east 1 0 (by decide), by decide, by decide, by decide,
    by decide, List.forall_mem_singleton.mpr rfl⟩

/-- The filters that the document spells. -/
def momentsFilter : (field : Field) → Filter field.domain
  | .eventCode => .set ⟨.include, momentsCodes⟩
  | .timestamp => .range ⟨.include, none, some moment⟩
  | _ => .unrestricted

/-- The codes in another order and with a repetition are their set. -/
theorem spelledFilter_eventCode : SpelledFilter (momentsFilter .eventCode)
    (.object [(some "set", .list [digitDocument '2', digitDocument '1', digitDocument '2'] true)]
      true) := by
  have one : Filter.SpelledValue .integer 1 (digitDocument '1') := .integer (by decide)
  have two : Filter.SpelledValue .integer 2 (digitDocument '2') := .integer (by decide)
  have codes : Filter.SpelledSet momentsCodes
      (.list [digitDocument '2', digitDocument '1', digitDocument '2'] true) := by
    refine .list ?_ ?_
    · intro item member
      simp only [List.mem_cons, List.not_mem_nil, or_false] at member
      rcases member with rfl | rfl | rfl
      · exact ⟨2, by decide, two⟩
      · exact ⟨1, by decide, one⟩
      · exact ⟨2, by decide, two⟩
    · refine List.forall_mem_cons.mpr ⟨⟨_, ?_, one⟩, List.forall_mem_singleton.mpr ⟨_, ?_, two⟩⟩
      · simp
      · simp
  refine .object (.set _) ?_ ?_
  · exact List.forall_mem_singleton.mpr ⟨_, rfl, .set, by decide⟩
  · intro slot
    cases slot with
    | set => exact .value (.value codes)
    | _ => exact .leftOut rfl

/-- The moment at an offset is the greatest one of its range. -/
theorem spelledFilter_timestamp : SpelledFilter (momentsFilter .timestamp)
    (.object [(some "max", .text (some "2024-01-01t00:00:00.5+01:00"))] true) := by
  have denotes : momentsTimestamp.Denotes moment := ⟨by decide, by decide⟩
  have spelled : Filter.SpelledValue .instant moment
      (.text (some (String.ofList momentsTimestamp.chars))) := .instant denotes
  have offset : String.ofList momentsTimestamp.chars = "2024-01-01t00:00:00.5+01:00" := by decide
  rw [offset] at spelled
  refine .object (.range _) ?_ ?_
  · exact List.forall_mem_singleton.mpr ⟨_, rfl, .maximum, by decide⟩
  · intro slot
    cases slot with
    | maximum => exact .value (.value spelled)
    | _ => exact .leftOut rfl

/-- The document is read as the collection that it spells, which then is valid. -/
theorem documents_spell_valid_collections_moments :
    read momentsText = .ok ⟨momentsFilter⟩ ∧ validate ⟨momentsFilter⟩ = .ok () := by
  have source : Json.Source.ofText momentsText = ⟨some momentsRoot, true⟩ := by cbv
  have valid : validate ⟨momentsFilter⟩ = .ok () := by decide
  have bounded : IsBounded ⟨momentsFilter⟩ := by
    intro field range own
    cases field with
    | timestamp =>
      cases own
      rfl
    | _ => cases own
  have few : elementCount ⟨momentsFilter⟩ ≤ 10000 := by decide
  have small : momentsText.utf8ByteSize ≤ 65536 := by decide +kernel
  have spelled : SpelledBy ⟨momentsFilter⟩ momentsRoot := by
    refine .object ?_ ?_
    · exact List.forall_mem_cons.mpr ⟨⟨_, rfl, .events, by decide⟩,
        List.forall_mem_singleton.mpr ⟨_, rfl, .sequencing, by decide⟩⟩
    · intro group
      cases group with
      | identity | versions =>
        refine .leftOut fun field inside => ?_
        cases field with
        | timestamp | eventCode => exact absurd inside (by decide)
        | _ => rfl
      | sequencing =>
        refine .value (.object ?_ ?_)
        · exact List.forall_mem_singleton.mpr ⟨_, rfl, .timestamp, by decide, by decide⟩
        · intro field inside
          cases field with
          | timestamp => exact .value spelledFilter_timestamp
          | sessionIndex => exact .leftOut rfl
          | _ => exact absurd inside (by decide)
      | events =>
        refine .value (.object ?_ ?_)
        · exact List.forall_mem_singleton.mpr ⟨_, rfl, .eventCode, by decide, by decide⟩
        · intro field inside
          cases field with
          | eventCode => exact .value spelledFilter_eventCode
          | eventName => exact .leftOut rfl
          | _ => exact absurd inside (by decide)
  obtain ⟨reads, valids⟩ := documents_spell_valid_collections
  have made := reads ⟨momentsFilter⟩ momentsText momentsRoot valid bounded few small source spelled
  exact ⟨made, (valids momentsText _ made).1⟩

end FilterCollection

end EventSieve
