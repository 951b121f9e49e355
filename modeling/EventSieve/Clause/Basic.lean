import EventSieve.Clause.Condition
import EventSieve.Clause.Dialect
import EventSieve.Clause.FreshName

/-!
# Clauses with parameters

A clause is a text that refers to parameters, together with the parameters. Its
fragments stand in the order of the conditions and are joined by AND. Positions
are counted through the whole clause, and parameter names are made unique within
it: a set gives one name, a range one for each of its bounds.

The text depends on the columns, on the comparisons and on how many values they
bind, never on the values.
-/

namespace EventSieve

open EventSieve.Filter (Domain Field Mode)

/-- The type of a parameter. -/
inductive ParameterType where
  | string
  | int64
  | float64
  | bool
  | timestamp
  | json
deriving DecidableEq, Repr

namespace ParameterType

/-- The type of the parameters that are compared with a column. -/
def ofColumn : ColumnType → ParameterType
  | .int => .int64
  | .float => .float64
  | .bool => .bool
  | .datetime => .timestamp
  | .json => .json
  | .str => .string
  | .timedelta => .string
  | .timezone => .string
  | .enum _ => .string

/-- The name of a parameter type. -/
def name : ParameterType → String
  | .string => "STRING"
  | .int64 => "INT64"
  | .float64 => "FLOAT64"
  | .bool => "BOOL"
  | .timestamp => "TIMESTAMP"
  | .json => "JSON"

end ParameterType

/-- What a parameter holds. -/
inductive ParameterValue where
  | scalar (value : Cell)
  | array (values : List Cell)
deriving Repr

/-- The values of a parameter in their order. -/
def ParameterValue.toList : ParameterValue → List Cell
  | .scalar value => [value]
  | .array values => values

/-- A value that a clause refers to. Dialects that count leave out the name. -/
structure Parameter where
  name : Option String
  type : ParameterType
  value : ParameterValue
deriving Repr

/-- A text with the parameters that it refers to, in their order. -/
structure Clause where
  text : String
  parameters : List Parameter
deriving Repr

namespace Clause

/-- The clause that restricts nothing. -/
def empty : Clause := ⟨"", []⟩

/-- Whether a clause restricts nothing. -/
def isEmpty (clause : Clause) : Bool :=
  clause.text.isEmpty

/-- The word that turns a comparison around. -/
def negation : Mode → String
  | .include => ""
  | .exclude => "NOT"

/-- The sign of a comparison with a minimum. -/
def minimumSign : Mode → String
  | .include => ">"
  | .exclude => "<"

/-- The sign of a comparison with a maximum. -/
def maximumSign : Mode → String
  | .include => "<"
  | .exclude => ">"

/-- A scalar parameter; its name is kept only by dialects that name parameters. -/
def scalarParameter (dialect : Dialect) (name : String) (type : ParameterType) (value : Cell) :
    Parameter :=
  ⟨if dialect.namesParameters then some name else none, type, .scalar value⟩

/-- A rendered condition: its fragment with the names that it puts into use. -/
structure Rendered where
  text : String
  parameters : List Parameter
  names : List String
deriving Repr

/-- Renders one condition when so many parameters stand before it and some names
are in use. -/
def render (dialect : Dialect) (before : Nat) (used : List String) (condition : Condition) :
    Rendered :=
  let binding := condition.binding
  let column := dialect.identifier binding.column
  let type := ParameterType.ofColumn binding.type
  let stem := parameterStem binding.column
  match condition.comparison with
  | .never => ⟨"1=0", [], []⟩
  | .membership mode values =>
    let name := freshName used (stem ++ "_list")
    let front := column ++ " " ++ negation mode ++ " IN "
    if dialect.bindsArrays then
      ⟨front ++ Dialect.arrayOperand (dialect.reference name (before + 1)),
        [⟨some name, type, .array values⟩], [name]⟩
    else
      ⟨front ++ Dialect.listOperand
          ((List.range values.length).map fun index => dialect.reference name (before + index + 1)),
        values.map (scalarParameter dialect name type), [name]⟩
  | .between mode minimum maximum =>
    let first := freshName used (stem ++ "_min")
    let second := freshName (first :: used) (stem ++ "_max")
    ⟨column ++ " " ++ negation mode ++ " BETWEEN " ++ dialect.reference first (before + 1) ++ " AND " ++
        dialect.reference second (before + 2),
      [scalarParameter dialect first type minimum, scalarParameter dialect second type maximum],
      [second, first]⟩
  | .minimum mode bound =>
    let name := freshName used (stem ++ "_min")
    ⟨column ++ " " ++ minimumSign mode ++ " " ++ dialect.reference name (before + 1),
      [scalarParameter dialect name type bound], [name]⟩
  | .maximum mode bound =>
    let name := freshName used (stem ++ "_max")
    ⟨column ++ " " ++ maximumSign mode ++ " " ++ dialect.reference name (before + 1),
      [scalarParameter dialect name type bound], [name]⟩

/-- Renders conditions one after the other. -/
def renderAll (dialect : Dialect) : Nat → List String → List Condition → List Rendered
  | _, _, [] => []
  | before, used, condition :: rest =>
    let rendered := render dialect before used condition
    rendered :: renderAll dialect (before + rendered.parameters.length) (rendered.names ++ used) rest

/-- The conjunction of conditions without a keyword in front. -/
def conjunction (dialect : Dialect) (conditions : List Condition) : Clause :=
  let fragments := renderAll dialect 0 [] conditions
  ⟨String.intercalate "\nAND " (fragments.map (·.text)), (fragments.map (·.parameters)).flatten⟩

/-- The conjunction of conditions behind the keyword WHERE; without conditions
nothing is written. -/
def whereClause (dialect : Dialect) (conditions : List Condition) : Clause :=
  if conditions.isEmpty then empty
  else
    let clause := conjunction dialect conditions
    ⟨"WHERE " ++ clause.text, clause.parameters⟩

variable {domain : Domain}

/-- The fragment of one set filter. -/
def ofSetFilter (dialect : Dialect) (bindings : Bindings) (field : Field)
    (filter : SetFilter domain) : Except FilterError Clause := do
  Condition.requireShape field .set
  let binding ← bindings.resolve field
  let condition ← Condition.ofSet binding filter
  return conjunction dialect condition.toList

/-- The fragment of one range filter. A range without bounds is not looked at any
further. -/
def ofRangeFilter (dialect : Dialect) (bindings : Bindings) (field : Field)
    (filter : RangeFilter domain) : Except FilterError Clause :=
  if filter.isUnbounded then .ok empty
  else do
    Condition.requireShape field .range
    let binding ← bindings.resolve field
    let condition ← Condition.ofRange binding filter
    return conjunction dialect condition.toList

/-- The fragment of one filter. A filter that restricts nothing has an empty one. -/
def ofFilter (dialect : Dialect) (bindings : Bindings) (field : Field) (filter : Filter domain) :
    Except FilterError Clause :=
  if filter.isTrivial then .ok empty
  else match filter with
    | .unrestricted => .ok empty
    | .set filter => ofSetFilter dialect bindings field filter
    | .range filter => ofRangeFilter dialect bindings field filter

/-- The clause of a collection of filters. -/
def ofCollection (dialect : Dialect) (bindings : Bindings) (collection : FilterCollection) :
    Except FilterError Clause := do
  return whereClause dialect (← Condition.ofCollection bindings collection)

/-- The JSON value of a parameter. -/
def parameterJson (parameter : Parameter) : Json :=
  .object ((parameter.name.map fun name => ("name", Json.text name)).toList ++
    [("type", .text parameter.type.name),
      ("value", match parameter.value with
        | .scalar value => value.toJson
        | .array values => .list (values.map Cell.toJson))])

/-- The parameters of a clause as a JSON value. -/
def parametersJson (clause : Clause) : Json :=
  .list (clause.parameters.map parameterJson)

/-- The JSON value of a clause. -/
def toJson (clause : Clause) : Json :=
  .object [("text", .text clause.text), ("parameters", clause.parametersJson)]

end Clause

end EventSieve
