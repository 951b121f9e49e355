import EventSieve.Record.Format

/-!
# Features

A feature is a measurement for one unit of a game: a session, a player, an
attempt at a level. It has a list of values with names. A value that has no name
of its own is named by the feature and its position.
-/

namespace EventSieve

/-- One measurement. -/
structure Feature where
  name : String
  featureType : String
  gameUnit : String
  gameUnitIndex : Option Int64
  appId : String
  userId : Option String
  sessionId : String
  subfeatures : List String
  values : List Json
deriving Repr

namespace Feature

/-- The logical fields of a feature. -/
def fields : List String :=
  ["name", "feature_type", "game_unit", "game_unit_index", "app_id", "user_id", "session_id",
    "subfeatures", "values"]

/-- The name that an item of a list gives: a text itself, and the JSON text of
everything else. -/
def itemName : Json → String
  | .text value => value
  | other => other.compact

/-- Reads a feature. The names of its values are looked at first. -/
def read (reader : RowReader) : RowReader.Reads Feature := do
  let subfeatures ← reader.list "subfeatures"
  let name ← reader.requiredText "name"
  let featureType ← reader.requiredText "feature_type"
  let gameUnit ← reader.requiredText "game_unit"
  let gameUnitIndex ← reader.integer "game_unit_index"
  let appId ← reader.requiredText "app_id"
  let userId ← reader.text "user_id"
  let sessionId ← reader.requiredText "session_id"
  let values ← reader.list "values"
  pure ⟨name, featureType, gameUnit, gameUnitIndex, appId, userId, sessionId,
    subfeatures.map itemName, values⟩

/-- The value of a feature in a logical field. -/
def fieldValue (feature : Feature) (field : String) : Cell :=
  match field with
  | "name" => .text feature.name
  | "feature_type" => .text feature.featureType
  | "game_unit" => .text feature.gameUnit
  | "game_unit_index" => .ofInteger? feature.gameUnitIndex
  | "app_id" => .text feature.appId
  | "user_id" => .ofText? feature.userId
  | "session_id" => .text feature.sessionId
  | "subfeatures" => .json (.list (feature.subfeatures.map .text))
  | "values" => .json (.list feature.values)
  | _ => .null

/-- How features are read and written. They are not numbered. -/
def format : RecordFormat Feature :=
  ⟨fields, read, fieldValue, fun sequence feature => (feature, sequence)⟩

/-- The name of a value without a name of its own. -/
def positionName (name : String) (index : Nat) : String :=
  name ++ "_" ++ Number.integerText index

/-- Gives names to values from a position on, as long as there are names. -/
def nameFrom (name : String) : Nat → List String → List Json → List (String × Json)
  | _, _, [] => []
  | index, own :: names, value :: rest => (own, value) :: nameFrom name (index + 1) names rest
  | index, [], value :: rest =>
    (positionName name index, value) :: nameFrom name (index + 1) [] rest

/-- The values of a feature with their names. -/
def namedValues (feature : Feature) : List (String × Json) :=
  nameFrom feature.name 0 feature.subfeatures feature.values

/-- The JSON value of a feature. -/
def toJson (feature : Feature) : Json :=
  .object
    [("name", .text feature.name),
      ("feature_type", .text feature.featureType),
      ("game_unit", .text feature.gameUnit),
      ("game_unit_index", (Cell.ofInteger? feature.gameUnitIndex).toJson),
      ("app_id", .text feature.appId),
      ("user_id", .ofText? feature.userId),
      ("session_id", .text feature.sessionId),
      ("subfeatures", .list (feature.subfeatures.map .text)),
      ("values", .list feature.values)]

/-- The value at a position has the name at that position, or one made from it. -/
theorem getElem?_nameFrom (name : String) (start : Nat) (names : List String) (values : List Json)
    (index : Nat) : (nameFrom name start names values)[index]? =
      values[index]?.map fun value =>
        (names[index]?.getD (positionName name (start + index)), value) := by
  induction values generalizing start names index with
  | nil => cases names <;> rfl
  | cons value rest inductionHypothesis =>
    cases names <;> cases index <;>
      simp [nameFrom, inductionHypothesis, Nat.add_assoc, Nat.add_comm 1]

/-- The values of a feature stay in their order under their names. -/
theorem getElem?_namedValues (feature : Feature) (index : Nat) :
    feature.namedValues[index]? = feature.values[index]?.map fun value =>
      (feature.subfeatures[index]?.getD (positionName feature.name index), value) := by
  rw [namedValues, getElem?_nameFrom, Nat.zero_add]

end Feature

end EventSieve
