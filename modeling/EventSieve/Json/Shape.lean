import EventSieve.Json.Document

/-!
# Documents with a fixed list of fields

A reader that knows its fields goes through a document in the order of the text.
It takes an object whose keys name fields, each at most once, or a list that
gives the fields in their order. Faults are therefore met in the order in which
they stand: a key that is not known or not allowed is refused before its value
is looked at, and a container that was never closed is refused after its last
part.

The list form either has to give all fields or may leave out the last ones; more
items than fields are refused in both.
-/

namespace EventSieve.Json

/-- How a reader takes a document with a fixed list of fields. -/
structure FieldReader (ι σ ε : Type) where
  /-- The fields in the order of the list form. -/
  fields : List ι
  /-- The field that a key names. -/
  named : String → Option ι
  /-- Whether keys that name no field are passed over. -/
  skipsUnknown : Bool
  /-- Whether the list form has to give all fields. -/
  wholeList : Bool
  /-- What is reported for a document of another form. -/
  malformed : ε
  /-- Takes the value of a field, which stands below the limit of depth given. -/
  visit : Nat → σ → ι → Document → Except ε σ

namespace FieldReader

variable {ι σ ε : Type} [DecidableEq ι]

/-- Takes the members of an object in order. -/
def members (reader : FieldReader ι σ ε) (depth : Nat) (closed : Bool) :
    List ι → σ → List (Option String × Document) → Except ε σ
  | _, state, [] => if closed then .ok state else .error reader.malformed
  | seen, state, (key, value) :: rest =>
    match key with
    | none => .error reader.malformed
    | some key =>
      match reader.named key with
      | none =>
        if reader.skipsUnknown then reader.members depth closed seen state rest
        else .error reader.malformed
      | some field =>
        if seen.contains field then .error reader.malformed
        else
          match reader.visit depth state field value with
          | .ok state => reader.members depth closed (field :: seen) state rest
          | .error fault => .error fault

/-- Takes the items of a list in order, one for each field. -/
def items (reader : FieldReader ι σ ε) (depth : Nat) (closed : Bool) :
    List ι → σ → List Document → Except ε σ
  | [], state, [] => if closed then .ok state else .error reader.malformed
  | [], _, _ :: _ => .error reader.malformed
  | _ :: _, state, [] =>
    if closed && !reader.wholeList then .ok state else .error reader.malformed
  | field :: fields, state, value :: rest =>
    match reader.visit depth state field value with
    | .ok state => reader.items depth closed fields state rest
    | .error fault => .error fault

/-- Reads a document that stands below a limit of depth. -/
def read (reader : FieldReader ι σ ε) (depth : Nat) (start : σ) : Document → Except ε σ
  | .object members closed =>
    if depth ≤ 1 then .error reader.malformed
    else reader.members (depth - 1) closed [] start members
  | .list items closed =>
    if depth ≤ 1 then .error reader.malformed
    else reader.items (depth - 1) closed reader.fields start items
  | _ => .error reader.malformed

end FieldReader

end EventSieve.Json
