import EventSieve.Proofs.Clause.Compilation

/-!
# The truth of tests

A database answers a test of a row with yes, with no, or with nothing known: a
cell that is null compares with nothing. Nothing known stays so when it is turned
around, and a row passes only when all tests say yes.

Cells are compared with values of their own kind. These are the kinds that
filters bind, so texts, integers and instants are the ones that compare here; a
test of any other cell says nothing.
-/

namespace EventSieve

/-- What a database knows about a test. -/
inductive Truth where
  | yes
  | no
  | unknown
deriving DecidableEq, Repr

namespace Truth

/-- The truth of something that is known. -/
def ofBool : Bool → Truth
  | true => .yes
  | false => .no

/-- The truth of both. -/
def and : Truth → Truth → Truth
  | .no, _ => .no
  | _, .no => .no
  | .yes, .yes => .yes
  | _, _ => .unknown

/-- The truth of at least one. -/
def or : Truth → Truth → Truth
  | .yes, _ => .yes
  | _, .yes => .yes
  | .no, .no => .no
  | _, _ => .unknown

/-- The truth of the contrary. -/
def not : Truth → Truth
  | .yes => .no
  | .no => .yes
  | .unknown => .unknown

/-- The truth of something that may be turned around. -/
def negate (negated : Bool) (truth : Truth) : Truth :=
  if negated then truth.not else truth

/-- The truth of all together. -/
def all (truths : List Truth) : Truth :=
  truths.foldr and .yes

/-- The truth of any of them. -/
def any (truths : List Truth) : Truth :=
  truths.foldr or .no

/-- What is known is yes exactly when it holds. -/
@[simp] theorem ofBool_eq_yes (value : Bool) : ofBool value = .yes ↔ value = true := by
  cases value <;> simp [ofBool]

/-- Turning around what is known. -/
theorem negate_ofBool (negated value : Bool) :
    (ofBool value).negate negated = ofBool (if negated then !value else value) := by
  cases negated <;> cases value <;> rfl

/-- Both of what is known. -/
theorem and_ofBool (left right : Bool) : (ofBool left).and (ofBool right) = ofBool (left && right) := by
  cases left <;> cases right <;> rfl

/-- Any of what is known. -/
theorem any_map_ofBool {Item : Type} (test : Item → Bool) (items : List Item) :
    any (items.map fun item => ofBool (test item)) = ofBool (items.any test) := by
  induction items with
  | nil => rfl
  | cons item rest inductionHypothesis =>
    simp only [any] at inductionHypothesis
    simp only [any, List.map_cons, List.foldr_cons, inductionHypothesis, List.any_cons]
    cases test item <;> cases rest.any test <;> rfl

/-- Of things about which nothing is known, nothing is known of any, unless there
are none. -/
theorem any_unknown {Item : Type} {items : List Item} (present : items ≠ []) :
    any (items.map fun _ => unknown) = unknown := by
  induction items with
  | nil => exact absurd rfl present
  | cons item rest inductionHypothesis =>
    cases rest with
    | nil => rfl
    | cons next more =>
      have later := inductionHypothesis (List.cons_ne_nil next more)
      refine (congrArg unknown.or later).trans ?_
      rfl

/-- All together are yes exactly when each of them is. -/
theorem all_eq_yes_iff (truths : List Truth) : all truths = .yes ↔ ∀ truth ∈ truths, truth = .yes := by
  have both (left right : Truth) : left.and right = .yes ↔ left = .yes ∧ right = .yes := by
    cases left <;> cases right <;> decide
  induction truths with
  | nil => simp [all]
  | cons truth rest inductionHypothesis =>
    rw [List.forall_mem_cons]
    exact (both truth (all rest)).trans (and_congr Iff.rfl inductionHypothesis)

end Truth

/-- The order of two cells of one kind. Null compares with nothing. -/
def Cell.compare? : Cell → Cell → Option Ordering
  | .text left, .text right => some (compare left right)
  | .integer left, .integer right => some (compare left right)
  | .instant left, .instant right => some (left.order right)
  | _, _ => none

/-- The truth of a comparison of cells. -/
def Cell.comparesAs (accepted : Ordering → Bool) (left right : Cell) : Truth :=
  match left.compare? right with
  | some order => .ofBool (accepted order)
  | none => .unknown

namespace Clause

/-- A test of a row with the values that it compares with. -/
inductive Test where
  | constant (holds : Bool)
  | among (column : String) (negated : Bool) (values : List Cell)
  | between (column : String) (negated : Bool) (lower upper : Cell)
  | less (column : String) (bound : Cell)
  | greater (column : String) (bound : Cell)
deriving Repr

namespace Test

/-- The column whose cells are tested. -/
def column? : Test → Option String
  | .constant _ => none
  | .among column _ _ => some column
  | .between column _ _ _ => some column
  | .less column _ => some column
  | .greater column _ => some column

/-- The truth of a test at a cell of its column. -/
def truthAt (cell : Cell) : Test → Truth
  | .constant holds => .ofBool holds
  | .among _ negated values =>
    (Truth.any (values.map fun value => cell.comparesAs (· == .eq) value)).negate negated
  | .between _ negated lower upper =>
    ((cell.comparesAs (· != .lt) lower).and (cell.comparesAs (· != .gt) upper)).negate negated
  | .less _ bound => cell.comparesAs (· == .lt) bound
  | .greater _ bound => cell.comparesAs (· == .gt) bound

/-- The truth of a test of a row that has a cell under each of its columns. -/
def truth? (cellOf? : String → Option Cell) (test : Test) : Option Truth :=
  match test.column? with
  | none => some (test.truthAt .null)
  | some column => (cellOf? column).map fun cell => test.truthAt cell

/-- The test that a condition asks for. -/
def ofCondition (condition : Condition) : Test :=
  let column := condition.binding.column
  match condition.comparison with
  | .never => .constant false
  | .membership mode values => .among column (mode = .exclude) values
  | .between mode lower upper => .between column (mode = .exclude) lower upper
  | .minimum .include bound => .greater column bound
  | .minimum .exclude bound => .less column bound
  | .maximum .include bound => .less column bound
  | .maximum .exclude bound => .greater column bound

/-- The test of a condition never says yes to a null cell, as long as a set that it
compares with has values. -/
theorem truthAt_null_ne_yes {condition : Condition} (filled : condition.comparison.IsFilled) :
    (ofCondition condition).truthAt .null ≠ .yes := by
  obtain ⟨binding, comparison⟩ := condition
  cases comparison with
  | never => exact fun same => nomatch same
  | membership mode values =>
    have nothing : Truth.any (values.map fun value => Cell.null.comparesAs (· == .eq) value) =
        .unknown := Truth.any_unknown filled
    simp only [ofCondition, truthAt, nothing]
    cases mode <;> decide
  | between mode lower upper => cases mode <;> exact fun same => nomatch same
  | minimum mode bound => cases mode <;> exact fun same => nomatch same
  | maximum mode bound => cases mode <;> exact fun same => nomatch same

end Test

end Clause

end EventSieve
