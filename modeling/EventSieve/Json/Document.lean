import EventSieve.Json.Members
import EventSieve.Json.Token

/-!
# What a JSON text spells

A document is the tree that a text spells as far as the text goes. Containers
say whether they were closed, so a text that breaks off in the middle still
shows everything before the fault: readers that walk a document in its order
meet its faults in the order of the text. Numbers keep their spelling, objects
keep repeated keys, and a string with a lone surrogate is present without its
content.

The tree is built with a stack of open containers, one token at a time. How deep
a text nests therefore costs nothing; a limit on depth is applied by the readers.
-/

namespace EventSieve.Json

/-- The tree that JSON text spells. -/
inductive Document where
  | null
  | boolean (value : Bool)
  | number (spelling : NumberSpelling)
  | text (content : Option String)
  | list (items : List Document) (closed : Bool)
  | object (members : List (Option String × Document)) (closed : Bool)
deriving Repr

/-- A container that is still open, with its latest part first. -/
inductive Container where
  | list (items : List Document)
  | object (members : List (Option String × Document))
  /-- An object whose last key still waits for its value. -/
  | member (members : List (Option String × Document)) (key : Option String)

/-- What may come next. -/
inductive Place where
  | value
  | valueOrEnd
  | key
  | keyOrEnd
  | colon
  | separator
deriving DecidableEq, Repr

/-- What a token does at a place: the tree goes on, its root is complete, or the
token cannot stand there. -/
inductive Step where
  | next (place : Place) (containers : List Container)
  | complete (root : Document)
  | fault

/-- Puts a finished value into the innermost open container. -/
def settle (value : Document) : List Container → Step
  | [] => .complete value
  | .list items :: outer => .next .separator (.list (value :: items) :: outer)
  | .member members key :: outer => .next .separator (.object ((key, value) :: members) :: outer)
  | .object _ :: _ => .fault

/-- A value begins. -/
def beginValue (containers : List Container) : Token → Step
  | .null => settle .null containers
  | .boolean value => settle (.boolean value) containers
  | .number spelling => settle (.number spelling) containers
  | .text content => settle (.text content) containers
  | .openList => .next .valueOrEnd (.list [] :: containers)
  | .openObject => .next .keyOrEnd (.object [] :: containers)
  | _ => .fault

/-- A key begins. -/
def beginKey (containers : List Container) (token : Token) : Step :=
  match token, containers with
  | .text key, .object members :: outer => .next .colon (.member members key :: outer)
  | _, _ => .fault

/-- The innermost container ends. -/
def endContainer (containers : List Container) (token : Token) : Step :=
  match token, containers with
  | .closeList, .list items :: outer => settle (.list items.reverse true) outer
  | .closeObject, .object members :: outer => settle (.object members.reverse true) outer
  | _, _ => .fault

/-- What a token does at a place. -/
def step (containers : List Container) (place : Place) (token : Token) : Step :=
  match place with
  | .value => beginValue containers token
  | .valueOrEnd =>
    if token = .closeList then endContainer containers token else beginValue containers token
  | .key => beginKey containers token
  | .keyOrEnd =>
    if token = .closeObject then endContainer containers token else beginKey containers token
  | .colon => if token = .colon then .next .value containers else .fault
  | .separator =>
    if token = .comma then
      match containers with
      | .list _ :: _ => .next .value containers
      | .object _ :: _ => .next .key containers
      | _ => .fault
    else endContainer containers token

/-- An open container as a document that was never closed, around the unclosed
document inside it. -/
def unclosed (inner : Option Document) : Container → Document
  | .list items => .list (inner.toList ++ items).reverse false
  | .object members => .object members.reverse false
  | .member members key =>
    .object ((inner.map fun document => (key, document)).toList ++ members).reverse false

/-- A text read as JSON: what it spells, when it spells anything, and whether it
ends there. -/
structure Source where
  root : Option Document
  ended : Bool

/-- Builds the tree of a row of tokens. -/
def build (containers : List Container) (place : Place) : List Token → Source
  | [] => ⟨containers.foldl (fun inner container => some (unclosed inner container)) none, false⟩
  | token :: rest =>
    match step containers place token with
    | .next place containers => build containers place rest
    | .complete root => ⟨some root, rest.isEmpty⟩
    | .fault =>
      ⟨containers.foldl (fun inner container => some (unclosed inner container)) none, false⟩

/-- Reads a text as JSON. -/
def Source.ofText (text : String) : Source :=
  build [] .value (tokens text)

/-- The depth of nesting that readers refuse. -/
def depthLimit : Nat := 128

mutual

/-- The value of a document that lies below a limit of depth. Every string needs
its content, every number its value, and every container its end. -/
def Document.value? (depth : Nat) : Document → Option Json
  | .null => some .null
  | .boolean value => some (.boolean value)
  | .number spelling => spelling.value?.map .number
  | .text content => content.map .text
  | .list items closed =>
    if 1 < depth && closed then (Document.itemValues? (depth - 1) items).map .list else none
  | .object members closed =>
    if 1 < depth && closed then
      (Document.memberValues? (depth - 1) members).map fun pairs => .object (ofPairs pairs)
    else none

/-- The values of the items of a list. -/
def Document.itemValues? (depth : Nat) : List Document → Option (List Json)
  | [] => some []
  | item :: rest =>
    match item.value? depth, Document.itemValues? depth rest with
    | some value, some values => some (value :: values)
    | _, _ => none

/-- The keys and values of the members of an object. -/
def Document.memberValues? (depth : Nat) :
    List (Option String × Document) → Option (List (String × Json))
  | [] => some []
  | (key, item) :: rest =>
    match key, item.value? depth, Document.memberValues? depth rest with
    | some key, some value, some values => some ((key, value) :: values)
    | _, _, _ => none

end

/-- The value that a text spells, if the whole text is one JSON value. -/
def read? (text : String) : Option Json :=
  match Source.ofText text with
  | ⟨some root, true⟩ => root.value? depthLimit
  | _ => none

end EventSieve.Json
