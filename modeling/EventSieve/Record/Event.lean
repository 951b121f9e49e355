import EventSieve.Record.Format

/-!
# Events

An event is something that happened in a session at one point in time. Texts
that an event needs are empty when they are missing, a missing time is the start
of 1970, and an event is taken to come from the game unless its source says
otherwise. An event without an index of its own is numbered within its session.
-/

namespace EventSieve

/-- Where an event came from. -/
inductive EventSource where
  | game
  | generated
deriving DecidableEq, Repr

namespace EventSource

/-- The name of a source. -/
def name : EventSource → String
  | .game => "GAME"
  | .generated => "GENERATED"

/-- The word by which a source is looked up: without blanks around it, in upper case. -/
def lookupWord (text : String) : String :=
  String.ofList ((Text.trimChars text.toList).map Char.toUpper)

/-- The source that a text names. -/
def ofText? (text : String) : Option EventSource :=
  let word := lookupWord text
  if word = "GAME" then some .game else if word = "GENERATED" then some .generated else none

/-- The name of a source names it. -/
theorem ofText?_name (source : EventSource) : ofText? source.name = some source := by
  cases source <;> decide +kernel

end EventSource

/-- One event. -/
structure Event where
  sessionId : String
  appId : String
  timestamp : Time.Instant
  eventName : String
  eventData : Json.Members
  eventSource : EventSource
  appVersion : Option String
  appBranch : Option String
  logVersion : Option String
  timeOffset : Option Time.Zone
  userId : Option String
  userData : Json.Members
  gameState : Json.Members
  eventSequenceIndex : Option Int64
deriving Repr

namespace Event

/-- The logical fields of an event. -/
def fields : List String :=
  ["session_id", "app_id", "timestamp", "event_name", "event_data", "event_source", "app_version",
    "app_branch", "log_version", "time_offset", "user_id", "user_data", "game_state",
    "event_sequence_index"]

/-- The start of 1970 in universal time. -/
def epoch : Time.Instant := ⟨0, 0, by decide⟩

/-- The time of an event. -/
def readTimestamp (reader : RowReader) : RowReader.Reads Time.Instant := do
  match ← reader.instant "timestamp" with
  | some value => pure value
  | none =>
    RowReader.warn "timestamp" .missingTimestamp
    pure epoch

/-- The source of an event. -/
def readSource (reader : RowReader) : RowReader.Reads EventSource := do
  match ← reader.text "event_source" with
  | none => pure .game
  | some text =>
    match EventSource.ofText? text with
    | some source => pure source
    | none =>
      RowReader.warn "event_source" (.unknownSource (EventSource.lookupWord text))
      pure .game

/-- Reads an event. The time and the source are looked at first. -/
def read (reader : RowReader) : RowReader.Reads Event := do
  let timestamp ← readTimestamp reader
  let eventSource ← readSource reader
  let sessionId ← reader.requiredText "session_id"
  let appId ← reader.requiredText "app_id"
  let eventName ← reader.requiredText "event_name"
  let eventData ← reader.object "event_data"
  let appVersion ← reader.text "app_version"
  let appBranch ← reader.text "app_branch"
  let logVersion ← reader.text "log_version"
  let timeOffset ← reader.zone "time_offset"
  let userId ← reader.text "user_id"
  let userData ← reader.object "user_data"
  let gameState ← reader.object "game_state"
  let eventSequenceIndex ← reader.integer "event_sequence_index"
  pure ⟨sessionId, appId, timestamp, eventName, eventData, eventSource, appVersion, appBranch,
    logVersion, timeOffset, userId, userData, gameState, eventSequenceIndex⟩

/-- The value of an event in a logical field. -/
def fieldValue (event : Event) (field : String) : Cell :=
  match field with
  | "session_id" => .text event.sessionId
  | "app_id" => .text event.appId
  | "timestamp" => .instant event.timestamp
  | "event_name" => .text event.eventName
  | "event_data" => .json (.object event.eventData)
  | "event_source" => .text event.eventSource.name
  | "app_version" => .ofText? event.appVersion
  | "app_branch" => .ofText? event.appBranch
  | "log_version" => .ofText? event.logVersion
  | "time_offset" => .ofZone? event.timeOffset
  | "user_id" => .ofText? event.userId
  | "user_data" => .json (.object event.userData)
  | "game_state" => .json (.object event.gameState)
  | "event_sequence_index" => .ofInteger? event.eventSequenceIndex
  | _ => .null

/-- Counts an event in its session; an event without an index takes its number. -/
def complete (sequence : SessionSequence) (event : Event) : Event × SessionSequence :=
  let (number, after) := sequence.observe event.sessionId
  let index := event.eventSequenceIndex.getD (Int64.ofNat number)
  ({ event with eventSequenceIndex := some index }, after)

/-- How events are read and written. -/
def format : RecordFormat Event := ⟨fields, read, fieldValue, complete⟩

/-- The JSON value of an event. -/
def toJson (event : Event) : Json :=
  .object
    [("session_id", .text event.sessionId),
      ("app_id", .text event.appId),
      ("timestamp", .text event.timestamp.text),
      ("event_name", .text event.eventName),
      ("event_data", .object event.eventData),
      ("event_source", .text event.eventSource.name),
      ("app_version", .ofText? event.appVersion),
      ("app_branch", .ofText? event.appBranch),
      ("log_version", .ofText? event.logVersion),
      ("time_offset", .ofText? (event.timeOffset.map Time.Zone.text)),
      ("user_id", .ofText? event.userId),
      ("user_data", .object event.userData),
      ("game_state", .object event.gameState),
      ("event_sequence_index", (Cell.ofInteger? event.eventSequenceIndex).toJson)]

end Event

end EventSieve
