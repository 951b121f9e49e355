import EventSieve.Frame.Mask
import EventSieve.Proofs.Clause.Truth
import EventSieve.Proofs.Filter.Order
import EventSieve.Proofs.Traversal

/-!
# Tests agree with filters

On a column of the type that fits its domain, a filter binds its values as they
are, and the cells of the column that are not null are values of the domain. There
a test says yes to the cells whose values the filter accepts, with one exception:
a condition on one bound is strict, so the bound itself passes the filter and not
the test. A null cell passes neither.

Ranges are compared here in the domains whose order is that of their cells. A
range of versions is not among them; it has no condition on a column of texts.
-/

namespace EventSieve

open EventSieve.Filter (Domain ElementSet Mode)

namespace Filter.Domain

/-- The type of the columns whose cells are values of a domain as they stand. -/
def columnType : Domain → ColumnType
  | .text => .str
  | .integer => .int
  | .version => .str
  | .instant => .datetime

/-- Whether a cell is null or holds a value of a domain as it stands; the text of a
version has no blanks around it. -/
def IsNative (domain : Domain) : Cell → Prop
  | .null => True
  | .text value => domain = .text ∨ domain = .version ∧ Text.trim value = value
  | .integer _ => domain = .integer
  | .instant _ => domain = .instant
  | _ => False

/-- A cell that is native to a domain is null or stands for a value. -/
theorem IsNative.cases {domain : Domain} {cell : Cell} (native : domain.IsNative cell) :
    cell = .null ∨ ∃ value, cell = domain.toCell value := by
  cases cell with
  | null => exact .inl rfl
  | text value =>
    rcases native with rfl | ⟨rfl, trimmed⟩
    · exact .inr ⟨value, rfl⟩
    · exact .inr ⟨Version.ofText value, congrArg Cell.text trimmed.symm⟩
  | integer value =>
    cases native
    exact .inr ⟨value, rfl⟩
  | instant value =>
    cases native
    exact .inr ⟨value, rfl⟩
  | boolean | float | span | zone | json => exact native.elim

/-- The cell that stands for a value is read as that value. -/
theorem ofCell?_toCell (domain : Domain) (value : domain.Carrier) :
    domain.ofCell? (domain.toCell value) = some value := by
  cases domain with
  | text => rfl
  | integer => rfl
  | version =>
    have trimmed : Text.trim value.text = value.text := by
      rw [Text.trim, value.trimmed, String.ofList_toList]
    exact congrArg some (Version.ext_text trimmed)
  | instant => rfl

/-- Cells compare as equal exactly when they stand for the same value. -/
theorem comparesAs_eq (domain : Domain) (left right : domain.Carrier) :
    (domain.toCell left).comparesAs (· == .eq) (domain.toCell right) =
      .ofBool (domain.same right left) := by
  have known : ∃ order, (domain.toCell left).compare? (domain.toCell right) = some order ∧
      (order = .eq ↔ left = right) := by
    cases domain with
    | text => exact ⟨_, rfl, order_eq_iff .text left right⟩
    | integer => exact ⟨_, rfl, order_eq_iff .integer left right⟩
    | version =>
      refine ⟨_, rfl, ?_⟩
      exact (order_eq_iff .text left.text right.text).trans
        ⟨Version.ext_text, congrArg Version.text⟩
    | instant => exact ⟨_, rfl, order_eq_iff .instant left right⟩
  obtain ⟨order, compared, equal⟩ := known
  simp only [Cell.comparesAs, compared]
  congr 1
  rw [Bool.eq_iff_iff, beq_iff_eq, equal, same_iff]
  exact eq_comm

/-- Cells compare as their values, where these are ordered as their cells are. -/
theorem comparesAs_order (domain : Domain) (plain : domain.ownOrder = false)
    (accepted : Ordering → Bool) (left right : domain.Carrier) :
    (domain.toCell left).comparesAs accepted (domain.toCell right) =
      .ofBool (accepted (domain.order left right)) := by
  cases domain with
  | text => rfl
  | integer => rfl
  | version => cases plain
  | instant => rfl

end Filter.Domain

variable {domain : Domain}

/-- On a column of the type of its domain a value is bound as it is. -/
theorem Condition.bindValue_eq {binding : Binding} {value : domain.Carrier} {cell : Cell}
    (suited : binding.type = domain.columnType) (bound : bindValue binding value = .ok cell) :
    cell = domain.toCell value := by
  have kept : (domain.toCell value).toType? domain.columnType = some (domain.toCell value) := by
    cases domain <;> rfl
  have notJson : (domain.columnType = .json) = False := by
    cases domain <;> simp [Domain.columnType]
  simp only [bindValue, Cell.convert, suited, notJson, decide_false, Bool.false_and,
    Bool.false_eq_true, if_false, kept] at bound
  split at bound
  · cases bound
  · rename_i converted found
    split at found
    · cases found
      cases bound
    · cases found
      rw [if_neg (by simp [Domain.toCell_isNull])] at bound
      cases bound
      rfl

namespace RangeFilter

/-- The bound of a range that has only one. -/
def singleBound? (filter : RangeFilter domain) : Option domain.Carrier :=
  match filter.minimum, filter.maximum with
  | some bound, none => some bound
  | none, some bound => some bound
  | _, _ => none

end RangeFilter

/-- Whether a filter keeps values on one side of a bound, and a cell is that bound. -/
def Filter.TouchesBound (filter : Filter domain) (cell : Cell) : Prop :=
  ∃ range bound, filter = .range range ∧ range.mode = .include ∧
    range.singleBound? = some bound ∧ cell = domain.toCell bound

/-- A cell without a reading does not pass a mask, and any other passes when the
filter accepts its value. -/
theorem Mask.ofReading_accepts (column : String) (filter : Filter domain) :
    (ofReading column filter).accepts .null = false ∧ ∀ value : domain.Carrier,
      (ofReading column filter).accepts (domain.toCell value) = filter.accepts value := by
  constructor
  · simp only [ofReading, Domain.ofCell?_null]
  · intro value
    simp only [ofReading, Domain.ofCell?_toCell]

namespace Clause.Test

/-- A test of membership says yes to the values of the set, or to the others. -/
theorem truthAt_among (column : String) (mode : Mode) (elements : List domain.Carrier)
    (value : domain.Carrier) :
    (among column (mode = .exclude) (elements.map domain.toCell)).truthAt (domain.toCell value) =
      .ofBool (mode.apply (elements.any fun element => domain.same element value)) := by
  have known : (elements.map domain.toCell).map (fun other =>
      (domain.toCell value).comparesAs (· == .eq) other) =
        elements.map fun element => .ofBool (domain.same element value) := by
    rw [List.map_map]
    exact List.map_congr_left fun element _ => domain.comparesAs_eq value element
  rw [truthAt, known, Truth.any_map_ofBool, Truth.negate_ofBool]
  cases mode <;> rfl

/-- A test of a place between two bounds includes them. -/
theorem truthAt_between (plain : domain.ownOrder = false) (column : String) (mode : Mode)
    (lower upper value : domain.Carrier) :
    (between column (mode = .exclude) (domain.toCell lower) (domain.toCell upper)).truthAt
        (domain.toCell value) =
      .ofBool (mode.apply (domain.upTo lower value && domain.upTo value upper)) := by
  have above : (domain.order value lower != .lt) = domain.upTo lower value := by
    rw [Domain.upTo, domain.order_swap lower value]
    cases domain.order lower value <;> rfl
  rw [truthAt, domain.comparesAs_order plain, domain.comparesAs_order plain, above,
    Truth.and_ofBool, Truth.negate_ofBool]
  cases mode <;> rfl

/-- A test of a place beyond a bound leaves the bound out. -/
theorem truthAt_greater (plain : domain.ownOrder = false) (column : String)
    (bound value : domain.Carrier) :
    (greater column (domain.toCell bound)).truthAt (domain.toCell value) = .yes ↔
      domain.order bound value = .lt := by
  rw [truthAt, domain.comparesAs_order plain, Truth.ofBool_eq_yes, domain.order_swap]
  cases domain.order bound value <;> decide

/-- A test of a place before a bound leaves the bound out. -/
theorem truthAt_less (plain : domain.ownOrder = false) (column : String)
    (bound value : domain.Carrier) :
    (less column (domain.toCell bound)).truthAt (domain.toCell value) = .yes ↔
      domain.order value bound = .lt := by
  rw [truthAt, domain.comparesAs_order plain, Truth.ofBool_eq_yes, beq_iff_eq]

end Clause.Test

/-- Cells of different values differ. -/
theorem Filter.Domain.toCell_injective {left right : domain.Carrier}
    (same : domain.toCell left = domain.toCell right) : left = right := by
  have read := congrArg domain.ofCell? same
  rw [ofCell?_toCell, ofCell?_toCell] at read
  exact Option.some.inj read

/-- A range filter touches a value exactly when it keeps what is on one side of it. -/
theorem Filter.touchesBound_range_iff (filter : RangeFilter domain) (value : domain.Carrier) :
    (Filter.range filter).TouchesBound (domain.toCell value) ↔
      filter.mode = .include ∧ filter.singleBound? = some value := by
  constructor
  · rintro ⟨range, bound, same, keeps, single, equal⟩
    cases same
    cases Domain.toCell_injective equal
    exact ⟨keeps, single⟩
  · rintro ⟨keeps, single⟩
    exact ⟨filter, value, rfl, keeps, single, rfl⟩

/-- A value strictly in one direction of a bound is one that may be the bound, but
is not. -/
theorem Filter.Domain.order_eq_lt_iff (left right : domain.Carrier) :
    domain.order left right = .lt ↔ domain.upTo left right = true ∧ left ≠ right := by
  rw [ne_eq, ← domain.order_eq_iff left right, Domain.upTo]
  cases domain.order left right <;> decide

/-- A value strictly in one direction of a bound does not lie in the other. -/
theorem Filter.Domain.order_eq_lt_iff_not (left right : domain.Carrier) :
    domain.order left right = .lt ↔ (!domain.upTo right left) = true := by
  rw [Domain.upTo, domain.order_swap left right]
  cases domain.order left right <;> decide

/-- The comparison with the bounds of a range as they stand. -/
def RangeFilter.comparison? (filter : RangeFilter domain) : Option Comparison :=
  match filter.minimum, filter.maximum with
  | none, none => none
  | some lower, some upper =>
    some (.between filter.mode (domain.toCell lower) (domain.toCell upper))
  | some lower, none => some (.minimum filter.mode (domain.toCell lower))
  | none, some upper => some (.maximum filter.mode (domain.toCell upper))

/-- The range between other bounds, which may be of another domain. -/
def RangeFilter.map {other : Domain} (turn : domain.Carrier → other.Carrier)
    (filter : RangeFilter domain) : RangeFilter other :=
  ⟨filter.mode, filter.minimum.map turn, filter.maximum.map turn⟩

/-- A range filter is compared with its bounds as the column binds them. The turn of the
values into those of another domain is left open, because a column of its own type binds a
value as it stands and a column of texts binds its text. -/
theorem Condition.rangeComparison_eq {binding : Binding} {filter : RangeFilter domain}
    {made : Option Comparison} {other : Domain} {turn : domain.Carrier → other.Carrier}
    (binds : ∀ value cell, bindValue binding value = .ok cell → cell = other.toCell (turn value))
    (compiled : rangeComparison binding filter = .ok made) :
    made = (filter.map turn).comparison? := by
  obtain ⟨mode, minimum, maximum⟩ := filter
  match minimum, maximum with
  | none, none =>
    cases compiled
    rfl
  | some lower, some upper =>
    obtain ⟨first, lowerBound, later⟩ := bind_eq_ok_iff.mp compiled
    obtain ⟨second, upperBound, same⟩ := bind_eq_ok_iff.mp later
    cases same
    rw [binds lower first lowerBound, binds upper second upperBound]
    rfl
  | some lower, none =>
    obtain ⟨first, lowerBound, same⟩ := bind_eq_ok_iff.mp compiled
    cases same
    rw [binds lower first lowerBound]
    rfl
  | none, some upper =>
    obtain ⟨first, upperBound, same⟩ := bind_eq_ok_iff.mp compiled
    cases same
    rw [binds upper first upperBound]
    rfl

/-- A test for the comparison with the bounds of a range says yes to the values that the
range accepts, but for a single bound up to which values are kept.

Proof: by the bounds that are there. With two of them the test asks what the filter asks.
With one the test is strict in either mode, so it and the filter differ at the bound itself,
and only where the filter keeps it. -/
theorem RangeFilter.truthAt_comparison {binding : Binding} {filter : RangeFilter domain}
    {comparison : Comparison} (plain : domain.ownOrder = false)
    (made : filter.comparison? = some comparison) (value : domain.Carrier) :
    (Clause.Test.ofCondition ⟨binding, comparison⟩).truthAt (domain.toCell value) = .yes ↔
      filter.accepts value = true ∧
        ¬ (Filter.range filter).TouchesBound (domain.toCell value) := by
  rw [Filter.touchesBound_range_iff]
  obtain ⟨mode, minimum, maximum⟩ := filter
  rcases minimum with _ | lower <;> rcases maximum with _ | upper
  case none.none => cases made
  case some.some =>
    cases made
    have truth : (Clause.Test.ofCondition ⟨binding, .between mode (domain.toCell lower)
        (domain.toCell upper)⟩).truthAt (domain.toCell value) = _ :=
      Clause.Test.truthAt_between plain binding.column mode lower upper value
    rw [truth]
    simp [singleBound?, accepts]
  case some.none =>
    cases made
    cases mode
    · refine (Clause.Test.truthAt_greater plain _ lower value).trans ?_
      rw [Domain.order_eq_lt_iff]
      simp [singleBound?, accepts, Mode.apply]
    · refine (Clause.Test.truthAt_less plain _ lower value).trans ?_
      rw [Domain.order_eq_lt_iff_not]
      simp [accepts, Mode.apply]
  case none.some =>
    cases made
    cases mode
    · refine (Clause.Test.truthAt_less plain _ upper value).trans ?_
      rw [Domain.order_eq_lt_iff, ne_comm]
      simp [singleBound?, accepts, Mode.apply]
    · refine (Clause.Test.truthAt_greater plain _ upper value).trans ?_
      rw [Domain.order_eq_lt_iff_not]
      simp [accepts, Mode.apply]

/-- A test for a condition of a range filter on a column of the type of its domain
says yes to the values that the filter accepts, but for a single bound up to which
values are kept. -/
theorem RangeFilter.truthAt_iff {binding : Binding} {filter : RangeFilter domain}
    {comparison : Comparison} (suited : binding.type = domain.columnType)
    (plain : domain.ownOrder = false)
    (made : Condition.rangeComparison binding filter = .ok (some comparison))
    (value : domain.Carrier) :
    (Clause.Test.ofCondition ⟨binding, comparison⟩).truthAt (domain.toCell value) = .yes ↔
      filter.accepts value = true ∧
        ¬ (Filter.range filter).TouchesBound (domain.toCell value) := by
  have same : some comparison = (filter.map id).comparison? :=
    Condition.rangeComparison_eq (fun _ _ bound => Condition.bindValue_eq suited bound) made
  have unchanged : filter.map id = filter := by
    simp only [RangeFilter.map, Option.map_id, id_eq]
  rw [unchanged] at same
  exact RangeFilter.truthAt_comparison plain same.symm value

/-- A test for a condition of a set filter says yes to the values that the filter accepts.
On a column of its own type the values that a clause lists are the cells of the elements. An
empty set has none to list: when its elements are kept, its condition is never true, and
otherwise it has no condition. -/
theorem SetFilter.truthAt_iff {binding : Binding} {filter : SetFilter domain}
    {condition : Condition} (suited : binding.type = domain.columnType)
    (made : Condition.ofSet binding filter = .ok (some condition)) (value : domain.Carrier) :
    (Clause.Test.ofCondition condition).truthAt (domain.toCell value) = .yes ↔
      filter.accepts value = true := by
  obtain ⟨mode, elements⟩ := filter
  simp only [Condition.ofSet] at made
  split at made
  · rename_i none
    have nothing : elements.contains value = false := by
      rw [ElementSet.contains, List.isEmpty_iff.mp none]
      rfl
    cases mode
    · cases made
      simp [Clause.Test.ofCondition, Clause.Test.truthAt, Truth.ofBool, accepts, nothing, Mode.apply]
    · cases made
  · obtain ⟨values, bound, same⟩ := bind_eq_ok_iff.mp made
    cases same
    have known : values = elements.toList.map domain.toCell :=
      eq_map_of_mapM_eq_ok bound fun element _ cell converted =>
        Condition.bindValue_eq suited converted
    have truth : (Clause.Test.ofCondition ⟨binding, .membership mode values⟩).truthAt
        (domain.toCell value) = _ :=
      known ▸ Clause.Test.truthAt_among binding.column mode elements.toList value
    rw [truth]
    simp [accepts, ElementSet.contains]

end EventSieve
