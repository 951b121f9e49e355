import EventSieve.Filter.Collection
import EventSieve.Json.Shape

/-!
# Filter documents

A filter document is a JSON text with four groups of fields. A group, and a
field in it, may be left out; the names of some have a second spelling. A filter
gives a mode, and either a set of values or bounds; giving both a set and a
bound is a fault of its own. Repeated values of a set count once, and a filter
with neither a set nor a bound restricts nothing.

A document is limited in its size in bytes and in the number of set elements of
all its filters, and the collection that it spells has to be valid.
-/

namespace EventSieve

open EventSieve.Filter (Domain ElementSet Field Mode)
open Json (Document)

namespace Filter

/-- Why a document does not spell a collection of filters. -/
inductive DocumentFault where
  /-- The text is no JSON of the expected form. -/
  | malformed
  /-- A filter gives a set and a bound. -/
  | setWithBounds
deriving DecidableEq, Repr

/-- The description of a fault in a document. -/
def DocumentFault.message : DocumentFault → String
  | .malformed => "unexpected content"
  | .setWithBounds => "filter cannot combine 'set' with 'min'/'max'"

/-- The integer that a document spells without fraction or exponent, if it fits
64 bits with sign. -/
def integerOfDocument? : Document → Option Int64
  | .number spelling =>
    match spelling.value? with
    | some (.integer value) => if Number.isInt64 value then some (Int64.ofInt value) else none
    | _ => none
  | _ => none

/-- The text that a document spells. -/
def textOfDocument? : Document → Option String
  | .text content => content
  | _ => none

/-- The value of a domain that a document spells. -/
def Domain.ofDocument? : (domain : Domain) → Document → Option domain.Carrier
  | .text => textOfDocument?
  | .integer => integerOfDocument?
  | .version => Version.ofDocument?
  | .instant => fun document => (textOfDocument? document).bind Time.relaxedInstant?

/-- The mode that a word stands for. -/
def Mode.ofText? (word : String) : Option Mode :=
  if word = "include" then some .include else if word = "exclude" then some .exclude else none

/-- The mode that a document spells: a word, or an object that gives the word a
null. -/
def Mode.ofDocument? (depth : Nat) : Document → Option Mode
  | .text content => content.bind Mode.ofText?
  | .object [(some word, .null)] true => if 1 < depth then Mode.ofText? word else none
  | _ => none

/-- The parts of a filter in a document. -/
inductive Slot where
  | mode
  | set
  | minimum
  | maximum
deriving DecidableEq, Repr

/-- The part of a filter that a key names. -/
def Slot.named? (key : String) : Option Slot :=
  if key = "mode" then some .mode
  else if key = "set" then some .set
  else if key = "min" then some .minimum
  else if key = "max" then some .maximum
  else none

/-- The parts of a filter that have been read. -/
structure Draft (domain : Domain) where
  mode : Mode
  elements : Option (List domain.Carrier)
  minimum : Option domain.Carrier
  maximum : Option domain.Carrier

namespace Draft

variable {domain : Domain}

/-- A filter of which nothing has been read. -/
def blank : Draft domain := ⟨.include, none, none, none⟩

/-- Reads a value, and nothing where null stands. -/
def value (domain : Domain) (document : Document) :
    Except DocumentFault (Option domain.Carrier) :=
  match document with
  | .null => .ok none
  | other =>
    match domain.ofDocument? other with
    | some value => .ok (some value)
    | none => .error .malformed

/-- Reads a list of values, and nothing where null stands. -/
def values (domain : Domain) (depth : Nat) (document : Document) :
    Except DocumentFault (Option (List domain.Carrier)) :=
  match document with
  | .null => .ok none
  | .list items true =>
    match if 1 < depth then items.mapM domain.ofDocument? else none with
    | some values => .ok (some values)
    | none => .error .malformed
  | _ => .error .malformed

/-- Reads one part of a filter. -/
def visit (domain : Domain) (depth : Nat) (draft : Draft domain) (slot : Slot)
    (document : Document) : Except DocumentFault (Draft domain) :=
  match slot with
  | .mode =>
    match Mode.ofDocument? depth document with
    | some mode => .ok { draft with mode := mode }
    | none => .error .malformed
  | .set => do return { draft with elements := ← values domain depth document }
  | .minimum => do return { draft with minimum := ← value domain document }
  | .maximum => do return { draft with maximum := ← value domain document }

/-- How a filter is read: unknown keys are refused, and the list form gives all parts. -/
def reader (domain : Domain) : Json.FieldReader Slot (Draft domain) DocumentFault where
  fields := [.mode, .set, .minimum, .maximum]
  named := Slot.named?
  skipsUnknown := false
  wholeList := true
  malformed := .malformed
  visit := visit domain

/-- The filter that the parts make up. -/
def toFilter (draft : Draft domain) : Except DocumentFault (Filter domain) :=
  match draft.elements with
  | some elements =>
    if draft.minimum.isSome || draft.maximum.isSome then .error .setWithBounds
    else .ok (.set ⟨draft.mode, .ofList elements⟩)
  | none => .ok (.ofRange draft.mode draft.minimum draft.maximum)

end Draft

/-- The filter that a document spells below a limit of depth. -/
def ofDocument (domain : Domain) (depth : Nat) (document : Document) :
    Except DocumentFault (Filter domain) := do
  let draft ← (Draft.reader domain).read depth .blank document
  draft.toFilter

/-- The filter that a whole JSON text spells. -/
def ofJsonText (domain : Domain) (text : String) : Except DocumentFault (Filter domain) :=
  let source := Json.Source.ofText text
  match source.root with
  | some root => do
    let filter ← ofDocument domain Json.depthLimit root
    if source.ended then .ok filter else .error .malformed
  | none => .error .malformed

/-- The groups of fields in a document. -/
inductive Axis where
  | identity
  | sequencing
  | versions
  | events
deriving DecidableEq, Repr

namespace Axis

/-- The group that a key names. -/
def named? (key : String) : Option Axis :=
  if key = "identity" then some .identity
  else if key = "sequencing" then some .sequencing
  else if key = "versions" || key = "version" then some .versions
  else if key = "events" || key = "event" then some .events
  else none

/-- The fields of a group in the order of its list form. -/
def fields : Axis → List Field
  | .identity => [.session, .player]
  | .sequencing => [.timestamp, .sessionIndex]
  | .versions => [.logVersion, .appVersion, .appBranch]
  | .events => [.eventName, .eventCode]

/-- The second spelling of the key of a field, where there is one. -/
def otherName? : Field → Option String
  | .sessionIndex => some "sessionIndex"
  | .logVersion => some "logVersion"
  | .appVersion => some "appVersion"
  | .appBranch => some "appBranch"
  | .eventName => some "eventName"
  | .eventCode => some "eventCode"
  | .session | .player | .timestamp => none

/-- The field of a group that a key names. -/
def fieldNamed? (group : Axis) (key : String) : Option Field :=
  group.fields.find? fun field => key = field.name || some key = otherName? field

/-- Reads the filter of one field into a collection. -/
def visitField (depth : Nat) (collection : FilterCollection) (field : Field) (document : Document) :
    Except DocumentFault FilterCollection := do
  return collection.set field (← ofDocument field.domain depth document)

/-- How a group is read: unknown keys are refused, and the list form may end early. -/
def reader (group : Axis) : Json.FieldReader Field FilterCollection DocumentFault where
  fields := group.fields
  named := group.fieldNamed?
  skipsUnknown := false
  wholeList := false
  malformed := .malformed
  visit := visitField

/-- Reads the filters of one group into a collection. -/
def visitAxis (depth : Nat) (collection : FilterCollection) (group : Axis) (document : Document) :
    Except DocumentFault FilterCollection :=
  group.reader.read depth collection document

/-- How a collection is read. -/
def collectionReader : Json.FieldReader Axis FilterCollection DocumentFault where
  fields := [.identity, .sequencing, .versions, .events]
  named := named?
  skipsUnknown := false
  wholeList := false
  malformed := .malformed
  visit := visitAxis

end Axis

end Filter

open EventSieve.Filter (DocumentFault)

/-- Why a filter document is refused. -/
inductive FilterDocumentError where
  | tooLarge (limit : Nat)
  | tooManyElements (count limit : Nat)
  | unreadable (fault : DocumentFault)
  | contradiction (error : FilterError)
deriving DecidableEq, Repr

namespace FilterDocumentError

/-- The message of an error. -/
def message : FilterDocumentError → String
  | .tooLarge limit =>
    "Filter JSON exceeds maximum size of " ++ Number.integerText limit ++ " bytes"
  | .tooManyElements count limit =>
    "Filter document holds " ++ Number.integerText count ++ " set elements, maximum is " ++
      Number.integerText limit
  | .unreadable fault => "Invalid filter JSON: " ++ fault.message
  | .contradiction error => "Invalid filter: " ++ error.message

/-- The messages of an error and of the errors behind it, outermost first. -/
def chain : FilterDocumentError → List String
  | .contradiction error => message (.contradiction error) :: error.chain
  | .unreadable fault => [message (.unreadable fault), fault.message]
  | error => [message error]

end FilterDocumentError

namespace FilterCollection

/-- The greatest size of a filter document in bytes. -/
def sizeLimit : Nat := 65536

/-- The greatest number of set elements of a filter document. -/
def elementLimit : Nat := 10000

/-- The collection that a document spells. -/
def ofDocument (document : Document) : Except DocumentFault FilterCollection :=
  Filter.Axis.collectionReader.read Json.depthLimit empty document

/-- The collection that a whole JSON text spells, without regard to its limits
and to contradictions. -/
def ofJsonText (text : String) : Except DocumentFault FilterCollection :=
  let source := Json.Source.ofText text
  match source.root with
  | some root => do
    let collection ← ofDocument root
    if source.ended then .ok collection else .error .malformed
  | none => .error .malformed

/-- Reads a filter document: first its size is checked, then its text is read,
then its elements are counted, and last its filters are validated. -/
def read (text : String) : Except FilterDocumentError FilterCollection := do
  if sizeLimit < text.utf8ByteSize then throw (.tooLarge sizeLimit)
  let collection ← (ofJsonText text).mapError .unreadable
  if elementLimit < collection.elementCount then
    throw (.tooManyElements collection.elementCount elementLimit)
  collection.validate.mapError .contradiction
  return collection

/-- A document is read when its text is small enough and spells a collection with few enough
elements that is valid. The checks come in this order, and each of them ends the reading. -/
theorem read_eq_ok_iff {text : String} {collection : FilterCollection} :
    read text = .ok collection ↔ text.utf8ByteSize ≤ sizeLimit ∧ ofJsonText text = .ok collection ∧
      collection.elementCount ≤ elementLimit ∧ collection.validate = .ok () := by
  rw [← Nat.not_lt, ← Nat.not_lt, read]
  constructor
  · intro made
    split at made
    · cases made
    · rename_i small
      cases spelled : ofJsonText text with
      | error fault =>
        rw [spelled] at made
        cases made
      | ok other =>
        rw [spelled] at made
        change (if elementLimit < other.elementCount then _ else _) = _ at made
        split at made
        · cases made
        · rename_i few
          cases valid : other.validate with
          | error error =>
            rw [valid] at made
            cases made
          | ok checked =>
            rw [valid] at made
            cases made
            exact ⟨small, rfl, few, valid⟩
  · rintro ⟨small, spelled, few, valid⟩
    rw [if_neg small, spelled]
    change (if elementLimit < collection.elementCount then _ else _) = _
    rw [if_neg few, valid]
    rfl

end FilterCollection

end EventSieve
