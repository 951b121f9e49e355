import EventSieve.Filter.Basic

/-!
# Filterable fields

Nine fields of a record can be filtered. Each has a domain of values, a name, a
logical field of the records behind it, and the shapes of filters it admits. All
walks over filters go through the fields in one order.
-/

namespace EventSieve.Filter

/-- The fields that can be filtered. -/
inductive Field where
  | session
  | player
  | timestamp
  | sessionIndex
  | logVersion
  | appVersion
  | appBranch
  | eventName
  | eventCode
deriving DecidableEq, Repr

namespace Field

/-- Every field, in the order in which filters are gone through. -/
def all : List Field :=
  [.session, .player, .timestamp, .sessionIndex, .logVersion, .appVersion, .appBranch, .eventName,
    .eventCode]

/-- What the values of a field are. -/
@[reducible] def domain : Field → Domain
  | .session | .player | .appBranch | .eventName => .text
  | .timestamp => .instant
  | .sessionIndex | .eventCode => .integer
  | .logVersion | .appVersion => .version

/-- The name of a field. -/
def name : Field → String
  | .session => "session"
  | .player => "player"
  | .timestamp => "timestamp"
  | .sessionIndex => "session_index"
  | .logVersion => "log_version"
  | .appVersion => "app_version"
  | .appBranch => "app_branch"
  | .eventName => "event_name"
  | .eventCode => "event_code"

/-- The logical field of a record that a filter field looks at. -/
def logicalField : Field → String
  | .session => "session_id"
  | .player => "user_id"
  | .timestamp => "timestamp"
  | .sessionIndex => "event_sequence_index"
  | .logVersion => "log_version"
  | .appVersion => "app_version"
  | .appBranch => "app_branch"
  | .eventName => "event_name"
  | .eventCode => "event_code"

/-- Whether a field admits filters of a shape. -/
def allows (field : Field) (shape : Shape) : Bool :=
  match field with
  | .session | .player | .appBranch | .eventName => shape = .set
  | .timestamp => shape = .range
  | .sessionIndex | .logVersion | .appVersion | .eventCode => true

/-- The list of all fields has every field. -/
theorem mem_all (field : Field) : field ∈ all := by
  cases field <;> decide

/-- The list of all fields has no field twice. -/
theorem nodup_all : all.Nodup := by decide

end Field

end EventSieve.Filter
