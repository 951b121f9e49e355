import EventSieve.Filter.Document
import EventSieve.Proofs.Filter.Elements
import EventSieve.Proofs.Json.Fields
import EventSieve.Proofs.Time.Timestamp

/-!
# The documents of a filter

What a document has to look like to spell a value, a set or a filter is said by the
value, the set or the filter: a version may have blanks around its text, an instant may
be any timestamp that denotes it, a set may list its values in any order and with
repetitions, and the parts of a filter stand under their keys in any order. A set or a
bound that is not there is null or left out, and so is a mode that keeps what matches.

Every such document is read as the filter that it spells.
-/

namespace EventSieve.Filter

open Json (Document Given SpelledOption valuesOf)

/-- Whether a document spells a value of a domain. -/
inductive SpelledValue : (domain : Domain) → domain.Carrier → Document → Prop
  | text (content : String) : SpelledValue .text content (.text (some content))
  | integer {value : Int64} {spelling : Json.NumberSpelling}
      (whole : spelling.value? = some (.integer value.toInt)) :
      SpelledValue .integer value (.number spelling)
  | version {value : Version} {front back : List Char}
      (blankFront : ∀ character ∈ front, Text.isBlank character = true)
      (blankBack : ∀ character ∈ back, Text.isBlank character = true) :
      SpelledValue .version value
        (.text (some (String.ofList (front ++ value.text.toList ++ back))))
  | instant {value : Time.Instant} {timestamp : Time.Timestamp}
      (denotes : timestamp.Denotes value) :
      SpelledValue .instant value (.text (some (String.ofList timestamp.chars)))

/-- Whether a document spells a set: a list of its values in any order, each at least
once. -/
inductive SpelledSet {domain : Domain} (elements : ElementSet domain) : Document → Prop
  | list {items : List Document}
      (inside : ∀ item ∈ items, ∃ value ∈ elements.toList, SpelledValue domain value item)
      (complete : ∀ value ∈ elements.toList, ∃ item ∈ items, SpelledValue domain value item) :
      SpelledSet elements (.list items true)

/-- What a filter is made of. -/
structure Parts (domain : Domain) where
  mode : Mode
  set : Option (ElementSet domain)
  minimum : Option domain.Carrier
  maximum : Option domain.Carrier

/-- Whether parts make a filter; without a set and bounds the mode does not matter. -/
inductive Parts.Make {domain : Domain} : Parts domain → Filter domain → Prop
  | unrestricted (mode : Mode) : Make ⟨mode, none, none, none⟩ .unrestricted
  | set (filter : SetFilter domain) : Make ⟨filter.mode, some filter.elements, none, none⟩ (.set filter)
  | range (filter : RangeFilter domain) :
      Make ⟨filter.mode, none, filter.minimum, filter.maximum⟩ (.range filter)

/-- The keys of the parts of a filter. -/
def Slot.spellings : Slot → List String
  | .mode => ["mode"]
  | .set => ["set"]
  | .minimum => ["min"]
  | .maximum => ["max"]

namespace Parts

variable {domain : Domain}

/-- Whether a part may be left out. -/
def MayLack (parts : Parts domain) : Slot → Prop
  | .mode => parts.mode = .include
  | .set => parts.set = none
  | .minimum => parts.minimum = none
  | .maximum => parts.maximum = none

/-- Whether a document spells a part. -/
def SpelledSlot (parts : Parts domain) : Slot → Document → Prop
  | .mode, document => document = .text (some parts.mode.text)
  | .set, document => SpelledOption SpelledSet parts.set document
  | .minimum, document => SpelledOption (SpelledValue domain) parts.minimum document
  | .maximum, document => SpelledOption (SpelledValue domain) parts.maximum document

end Parts

/-- Whether a document spells a filter: an object with the keys of its parts in any
order. -/
inductive SpelledFilter {domain : Domain} (filter : Filter domain) : Document → Prop
  | object {parts : Parts domain} {members : List (Option String × Document)}
      (make : parts.Make filter)
      (keys : ∀ member ∈ members, ∃ key, member.1 = some key ∧ ∃ slot, key ∈ Slot.spellings slot)
      (given : ∀ slot, Given (parts.MayLack slot) (parts.SpelledSlot slot)
        (valuesOf slot.spellings members)) :
      SpelledFilter filter (.object members true)

variable {domain : Domain}

/-- A value is read from what spells it. Each domain has a form of its own: a text as it
stands, an integer in digits, a version with blanks around it, and an instant in one of the
layouts. -/
theorem ofDocument?_of_spelledValue {value : domain.Carrier} {document : Document}
    (spelled : SpelledValue domain value document) : domain.ofDocument? document = some value := by
  cases spelled with
  | text content => rfl
  | @integer value spelling whole =>
    have fits : Number.isInt64 value.toInt = true := by
      rw [Number.isInt64, Bool.and_eq_true]
      exact ⟨decide_eq_true value.le_toInt, decide_eq_true value.toInt_lt⟩
    simp only [Domain.ofDocument?, integerOfDocument?, whole, fits, if_true, Int64.ofInt_toInt]
  | @version value front back blankFront blankBack =>
    have same : Version.ofText (String.ofList (front ++ value.text.toList ++ back)) = value := by
      apply Version.ext_text
      rw [Version.text_ofText, Text.trim, String.toList_ofList,
        Text.trimChars_surrounded blankFront blankBack value.trimmed, String.ofList_toList]
    change Option.map Version.ofText (some _) = some value
    rw [Option.map_some, same]
  | instant denotes =>
    change Option.bind (some (String.ofList _)) Time.relaxedInstant? = some _
    rw [Option.bind_some]
    exact Time.relaxedInstant?_of_denotes denotes

/-- Null spells no value. -/
theorem ne_null_of_spelledValue {value : domain.Carrier} {document : Document}
    (spelled : SpelledValue domain value document) : document ≠ .null := by
  rintro rfl
  cases spelled

/-- A set is read from what spells it. Order and repetitions do not matter, because a set is
known by its members: every item spells an element, and every element is spelled by an item. -/
theorem values_of_spelledSet {elements : ElementSet domain} {document : Document} {depth : Nat}
    (deep : 1 < depth) (spelled : SpelledSet elements document) :
    ∃ values, Draft.values domain depth document = .ok (some values) ∧
      ElementSet.ofList values = elements := by
  obtain ⟨inside, complete⟩ := spelled
  rename_i items
  have each : ∀ item ∈ items, ∃ value, domain.ofDocument? item = some value := by
    intro item member
    obtain ⟨value, -, spelled⟩ := inside item member
    exact ⟨value, ofDocument?_of_spelledValue spelled⟩
  obtain ⟨values, read⟩ := exists_mapM_eq_some each
  have steps := mapM_eq_some_iff.mp read
  refine ⟨values, ?_, ElementSet.ofList_eq ?_⟩
  · simp only [Draft.values, if_pos deep, read]
  · intro value
    constructor
    · intro member
      obtain ⟨item, listed, own⟩ := exists_source_of_mem steps member
      obtain ⟨other, known, spelled⟩ := inside item listed
      cases own.symm.trans (ofDocument?_of_spelledValue spelled)
      exact known
    · intro known
      obtain ⟨item, listed, spelled⟩ := complete value known
      obtain ⟨other, member, own⟩ := exists_value_of_mem steps listed
      cases own.symm.trans (ofDocument?_of_spelledValue spelled)
      exact member

namespace Draft

/-- An optional value is read from what spells it. -/
theorem value_of_spelled {optional : Option domain.Carrier} {document : Document}
    (spelled : SpelledOption (SpelledValue domain) optional document) :
    Draft.value domain document = .ok optional := by
  cases spelled with
  | null => rfl
  | value spelled =>
    have read := ofDocument?_of_spelledValue spelled
    have present := ne_null_of_spelledValue spelled
    cases document with
    | null => exact absurd rfl present
    | _ => simp only [Draft.value, read]

/-- An optional set is read from what spells it. -/
theorem values_of_spelled {optional : Option (ElementSet domain)} {document : Document}
    {depth : Nat} (deep : 1 < depth) (spelled : SpelledOption SpelledSet optional document) :
    ∃ found, Draft.values domain depth document = .ok found ∧
      found.map ElementSet.ofList = optional := by
  cases spelled with
  | null => exact ⟨none, rfl, rfl⟩
  | value spelled =>
    obtain ⟨values, read, same⟩ := values_of_spelledSet deep spelled
    exact ⟨some values, read, congrArg some same⟩

/-- The reader of filters knows the parts by their keys. -/
theorem reader_spelledBy : (reader domain).SpelledBy Slot.spellings := by
  intro key slot
  change Slot.named? key = some slot ↔ key ∈ slot.spellings
  cases slot <;> simp only [Slot.named?, Slot.spellings, List.mem_singleton] <;> grind

/-- Whether nothing has been read for a part. -/
def Lacks : Slot → Draft domain → Prop
  | .mode, draft => draft.mode = .include
  | .set, draft => draft.elements = none
  | .minimum, draft => draft.minimum = none
  | .maximum, draft => draft.maximum = none

/-- Whether what has been read for a part is that of a filter. -/
def Has (parts : Parts domain) : Slot → Draft domain → Prop
  | .mode, draft => draft.mode = parts.mode
  | .set, draft => draft.elements.map ElementSet.ofList = parts.set
  | .minimum, draft => draft.minimum = parts.minimum
  | .maximum, draft => draft.maximum = parts.maximum

/-- A part is read from what spells it, and no other part changes. A null in place of an
optional part is read as the part that is left out, which is what it spells. -/
theorem takes_spelledSlot {parts : Parts domain} {slot : Slot} {document : Document} {depth : Nat}
    (deep : 1 < depth) (spelled : parts.SpelledSlot slot document) :
    (reader domain).Takes depth Lacks (Has parts) slot document := by
  intro draft _
  cases slot with
  | mode =>
    cases spelled
    refine ⟨{ draft with mode := parts.mode }, ?_, rfl, ?_⟩
    · cases parts.mode <;> rfl
    · intro other apart
      cases other <;> first | exact absurd rfl apart | exact ⟨id, id⟩
  | set =>
    obtain ⟨found, read, same⟩ := values_of_spelled deep spelled
    refine ⟨{ draft with elements := found }, ?_, same, ?_⟩
    · simp only [reader, visit, read]
      rfl
    · intro other apart
      cases other <;> first | exact absurd rfl apart | exact ⟨id, id⟩
  | minimum =>
    refine ⟨{ draft with minimum := parts.minimum }, ?_, rfl, ?_⟩
    · simp only [reader, visit, value_of_spelled spelled]
      rfl
    · intro other apart
      cases other <;> first | exact absurd rfl apart | exact ⟨id, id⟩
  | maximum =>
    refine ⟨{ draft with maximum := parts.maximum }, ?_, rfl, ?_⟩
    · simp only [reader, visit, value_of_spelled spelled]
      rfl
    · intro other apart
      cases other <;> first | exact absurd rfl apart | exact ⟨id, id⟩

/-- A part that may be left out is the one of a filter when nothing has been read for it. -/
theorem has_of_lacks {parts : Parts domain} {slot : Slot} {draft : Draft domain}
    (may : parts.MayLack slot) (lacks : Lacks slot draft) : Has parts slot draft := by
  cases slot with
  | set =>
    have unread : draft.elements = none := lacks
    have absent : parts.set = none := may
    rw [Has, unread, absent]
    rfl
  | _ => exact lacks.trans may.symm

/-- Parts that have been read make up the filter that is made of them. The three ways in
which parts make up a filter are told apart by the parts that are there, in the order in
which the reader asks for them. -/
theorem toFilter_of_has {parts : Parts domain} {filter : Filter domain} {draft : Draft domain}
    (make : parts.Make filter) (bounded : ∀ range, filter = .range range → range.isUnbounded = false)
    (has : ∀ slot, Has parts slot draft) : draft.toFilter = .ok filter := by
  have mode : draft.mode = parts.mode := has .mode
  have set : draft.elements.map ElementSet.ofList = parts.set := has .set
  have minimum : draft.minimum = parts.minimum := has .minimum
  have maximum : draft.maximum = parts.maximum := has .maximum
  cases make with
  | unrestricted own =>
    have none := Option.map_eq_none_iff.mp set
    simp only [toFilter, none, minimum, maximum]
    rfl
  | set filter =>
    obtain ⟨values, some, same⟩ := Option.map_eq_some_iff.mp set
    simp only [toFilter, some, minimum, maximum, mode, same]
    rfl
  | range filter =>
    have none := Option.map_eq_none_iff.mp set
    have limited := bounded filter rfl
    simp only [RangeFilter.isUnbounded] at limited
    simp only [toFilter, none, minimum, maximum, mode, Filter.ofRange, limited, Bool.false_eq_true,
      if_false]

end Draft

/-- A filter is read from what spells it, unless it is a range without bounds. -/
theorem ofDocument_of_spelledFilter {filter : Filter domain} {document : Document} {depth : Nat}
    (deep : 2 < depth) (bounded : ∀ range, filter = .range range → range.isUnbounded = false)
    (spelled : SpelledFilter filter document) : ofDocument domain depth document = .ok filter := by
  obtain ⟨make, keys, given⟩ := spelled
  rename_i parts members
  have known : ∀ member ∈ members, ∃ key, member.1 = some key ∧
      ((Draft.reader domain).skipsUnknown = true ∨ ∃ slot, key ∈ Slot.spellings slot) := by
    intro member inside
    obtain ⟨key, same, slot⟩ := keys member inside
    exact ⟨key, same, Or.inr slot⟩
  have blank : ∀ slot, Draft.Lacks slot (.blank : Draft domain) := by
    intro slot
    cases slot <;> rfl
  obtain ⟨draft, read, complete⟩ := Json.FieldReader.exists_read Draft.Lacks (Draft.Has parts)
    Draft.reader_spelledBy (by omega : 1 < depth) known given
    (fun slot value => Draft.takes_spelledSlot (by omega))
    (fun slot draft => Draft.has_of_lacks) blank
  rw [ofDocument, read]
  exact Draft.toFilter_of_has make bounded complete

end EventSieve.Filter
