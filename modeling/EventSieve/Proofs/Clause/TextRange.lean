import EventSieve.Proofs.Clause.Agreement
import EventSieve.Proofs.Clause.Reading
import EventSieve.Proofs.Filter.TextOrder

/-!
# Ranges on columns of texts

On a column of texts a range filter binds the texts of its bounds, and so becomes
a range of texts. That range gives the verdict of the filter about the text of a
value as long as the value is not misordered against the bounds. With two bounds,
being misordered against both of them may cancel out: a value outside of the
range stays outside when its text lies beyond the other bound.

A range is accepted there in every domain that is taken to be ordered as texts,
integers and instants included, so the verdicts do differ.
-/

namespace EventSieve

open EventSieve.Filter (Domain Field Mode)

variable {domain : Domain}

namespace RangeFilter

/-- Whether the range between the texts of the bounds gives the verdict of a range
about a value: the value is not misordered against a bound, or it lies outside of
two bounds, and its text does not move between them. -/
def ComparesAsText (filter : RangeFilter domain) (value : domain.Carrier) : Prop :=
  match filter.minimum, filter.maximum with
  | none, none => True
  | some lower, none => ¬ domain.Misorders lower value
  | none, some upper => ¬ domain.Misorders value upper
  | some lower, some upper =>
    if domain.upTo lower value = false then
      domain.Misorders lower value → domain.Misorders value upper
    else if domain.upTo value upper = false then
      domain.Misorders value upper → domain.Misorders lower value
    else ¬ domain.Misorders lower value ∧ ¬ domain.Misorders value upper

/-- The range between the texts of the bounds. -/
def texts (filter : RangeFilter domain) : RangeFilter .text :=
  filter.map domain.display

/-- The range between the texts of the bounds accepts the text of a value when the range
accepts the value, exactly under that condition.

Proof: by the bounds that are there. The text of a value and the value are on different
sides of a bound exactly when the two are misordered. With one bound this is the condition.
With two bounds that are in order, a value is beyond at most one of them, and its text is
let in only when it crosses this one and stays within the other. -/
theorem accepts_display_iff {filter : RangeFilter domain} (plain : domain.ownOrder = false)
    (ordered : filter.isInverted = false) (value : domain.Carrier) :
    filter.texts.accepts (domain.display value) = filter.accepts value ↔ filter.ComparesAsText value := by
  obtain ⟨mode, minimum, maximum⟩ := filter
  have verdict (left right : Bool) : mode.apply left = mode.apply right ↔ left = right := by
    cases mode <;> cases left <;> cases right <;> decide
  have flipped (turned : Prop) [Decidable turned] (whether : Bool) :
      (whether ^^ decide turned) = whether ↔ ¬ turned := by
    by_cases known : turned <;> cases whether <;> simp [known]
  match minimum, maximum with
  | none, none => exact iff_of_true rfl trivial
  | some lower, none =>
    simp only [texts, map, accepts, Option.map_some, Option.map_none, ComparesAsText, verdict,
      domain.upTo_display plain, flipped]
  | none, some upper =>
    simp only [texts, map, accepts, Option.map_some, Option.map_none, ComparesAsText, verdict,
      domain.upTo_display plain, flipped]
  | some lower, some upper =>
    have between : domain.order lower upper ≠ .gt := by simpa [isInverted] using ordered
    simp only [texts, map, accepts, Option.map_some, ComparesAsText, verdict, domain.upTo_display plain]
    cases above : domain.upTo lower value with
    | false =>
      rw [Domain.upTo_of_not_upTo between above, if_pos rfl]
      by_cases first : domain.Misorders lower value <;>
        by_cases second : domain.Misorders value upper <;> simp [first, second]
    | true =>
      rw [if_neg Bool.true_eq_false.mp]
      cases domain.upTo value upper with
      | false =>
        rw [if_pos rfl]
        by_cases first : domain.Misorders lower value <;>
          by_cases second : domain.Misorders value upper <;> simp [first, second]
      | true =>
        rw [if_neg Bool.true_eq_false.mp]
        by_cases first : domain.Misorders lower value <;>
          by_cases second : domain.Misorders value upper <;> simp [first, second]

/-- A range between texts touches the text of a value as the range touches the
value. -/
theorem touchesBound_display_iff (filter : RangeFilter domain) (value : domain.Carrier) :
    (Filter.range filter.texts).TouchesBound (.text (domain.display value)) ↔
      (Filter.range filter).TouchesBound (domain.toCell value) := by
  have single : filter.texts.singleBound? = filter.singleBound?.map domain.display := by
    obtain ⟨mode, minimum, maximum⟩ := filter
    cases minimum <;> cases maximum <;> rfl
  refine (Filter.touchesBound_range_iff filter.texts (domain.display value)).trans ?_
  rw [Filter.touchesBound_range_iff, single, Option.map_eq_some_iff]
  refine and_congr Iff.rfl ⟨?_, fun bound => ⟨value, bound, rfl⟩⟩
  rintro ⟨bound, found, same⟩
  rw [found, domain.display_injective same]

end RangeFilter

/-- On a column of texts a value is bound as its text. -/
theorem Condition.bindValue_text {binding : Binding} {value : domain.Carrier} {cell : Cell}
    (texts : binding.type = .str) (bound : bindValue binding value = .ok cell) :
    cell = .text (domain.display value) := by
  simp only [bindValue, Cell.convert, texts, Cell.toType?, reduceCtorEq, decide_false,
    Bool.false_and, Bool.false_eq_true, if_false] at bound
  split at bound
  · cases bound
  · rename_i converted found
    split at found
    · cases found
      cases bound
    · cases found
      cases bound
      rfl

namespace Clause

/-- A fragment behind the keyword WHERE, where a database can read it. An empty
fragment asks for nothing. -/
def behindWhere (fragment : Clause) : Clause :=
  if fragment.text = "" then empty else ⟨"WHERE " ++ fragment.text, fragment.parameters⟩

/-- A conjunction behind the keyword is the clause of its conditions. -/
theorem behindWhere_conjunction (dialect : Dialect) (conditions : List Condition) :
    (conjunction dialect conditions).behindWhere = whereClause dialect conditions := by
  cases conditions with
  | nil => rfl
  | cons condition rest =>
    have written : (conjunction dialect (condition :: rest)).text ≠ "" := by
      intro nothing
      have read := tokens?_conjunction dialect condition rest
      rw [nothing] at read
      have absent := Option.some.inj ((tokens?_nil dialect).symm.trans read)
      exact Predicate.tokens_ne_nil _ (List.append_eq_nil_iff.mp absent.symm).1
    rw [behindWhere, if_neg written]
    rfl

/-- The fragment of a range filter on a column of texts is true about the text of a value
when the range between the texts of its bounds accepts that, but for a single bound up to
which values are kept. The fragment compares with the texts of the bounds, so it is the
fragment of a range of texts, and about this one the clause and the range are already known
to agree. A range without bounds has no fragment, and nothing is asked of the row. -/
theorem truth?_ofRangeFilter {dialect : Dialect} {bindings : Bindings} {field : Field}
    {column : String} {filter : RangeFilter domain} {clause : Clause}
    (texts : bindings.target field = .column ⟨column, .str⟩)
    (compiled : ofRangeFilter dialect bindings field filter = .ok clause)
    {cellOf? : String → Option Cell} {value : domain.Carrier}
    (stored : cellOf? column = some (.text (domain.display value))) :
    ∃ truth, clause.behindWhere.truth? dialect cellOf? = some truth ∧
      (truth = .yes ↔
        filter.texts.accepts (domain.display value) = true ∧
          ¬ (Filter.range filter).TouchesBound (domain.toCell value)) := by
  cases bounded : filter.isUnbounded with
  | true =>
    rw [ofRangeFilter, if_pos bounded] at compiled
    cases compiled
    obtain ⟨truth, read, yes⟩ :=
      @truth?_whereClause dialect [] (by simp) cellOf? (fun _ => .null) (by simp)
    refine ⟨truth, read, yes.trans (iff_of_true (by simp) ?_)⟩
    obtain ⟨mode, minimum, maximum⟩ := filter
    simp only [RangeFilter.isUnbounded, Bool.and_eq_true, Option.isNone_iff_eq_none] at bounded
    obtain ⟨rfl, rfl⟩ := bounded
    refine ⟨rfl, ?_⟩
    rw [Filter.touchesBound_range_iff]
    rintro ⟨_, single⟩
    cases single
  | false =>
    obtain ⟨_, _, comparison, found, filled, rfl⟩ := ofRangeFilter_eq_ok bounded texts compiled
    have bounds : some comparison = filter.texts.comparison? :=
      Condition.rangeComparison_eq (fun _ _ bound => Condition.bindValue_text rfl bound) found
    obtain ⟨truth, read, yes⟩ :=
      @truth?_whereClause dialect [⟨⟨column, .str⟩, comparison⟩] (by simpa using filled) cellOf?
        (fun _ => .text (domain.display value)) (by simpa using stored)
    refine ⟨truth, ?_, yes.trans ?_⟩
    · rw [behindWhere_conjunction]
      exact read
    · rw [List.forall_mem_singleton, ← RangeFilter.touchesBound_display_iff]
      exact RangeFilter.truthAt_comparison rfl bounds.symm (domain.display value)

/-- A range filter that is accepted on a column of texts has no bounds, or it has
values that are ordered as their cells are and its bounds are in order. -/
theorem plain_of_ofRangeFilter {dialect : Dialect} {bindings : Bindings} {field : Field}
    {column : String} {filter : RangeFilter domain} {clause : Clause}
    (texts : bindings.target field = .column ⟨column, .str⟩)
    (compiled : ofRangeFilter dialect bindings field filter = .ok clause) :
    filter.isUnbounded = true ∨ domain.ownOrder = false ∧ filter.isInverted = false := by
  cases bounded : filter.isUnbounded with
  | true => exact .inl rfl
  | false =>
    obtain ⟨ordered, plain, _⟩ := ofRangeFilter_eq_ok bounded texts compiled
    exact .inr ⟨by simpa [Condition.comparesText] using plain, ordered⟩

end Clause

/-- A range compares as texts about a value that is its single bound. -/
theorem RangeFilter.comparesAsText_of_singleBound {filter : RangeFilter domain}
    {value : domain.Carrier} (single : filter.singleBound? = some value) :
    filter.ComparesAsText value := by
  obtain ⟨mode, minimum, maximum⟩ := filter
  match minimum, maximum with
  | some lower, none =>
    cases single
    exact domain.not_misorders_self value
  | none, some upper =>
    cases single
    exact domain.not_misorders_self value

/-- In a domain that is taken to be ordered as texts, a value comes before another as its
text does exactly when the two are not misordered. Accordingly, a range filter that is
accepted on a column of texts gives its own verdict about the text of a value, but for a
single bound up to which values are kept, exactly when it compares as texts about that
value.

Proof: the first part compares the texts by their first difference, domain by domain. For
the second, the truth of the fragment is the verdict of the range between the texts. Where a
value touches a single bound both sides are false, and no value is misordered against
itself; elsewhere the two verdicts are the same exactly under the condition. -/
theorem text_ranges_follow_order_iff (domain : Domain) :
    (∀ left right : domain.Carrier, domain.ownOrder = false →
      ((domain.order left right = .lt ↔
          compare (domain.display left) (domain.display right) = .lt) ↔
        ¬ domain.Misorders left right)) ∧
    ∀ (dialect : Dialect) (bindings : Bindings) (field : Field) (column : String)
      (filter : RangeFilter domain) (clause : Clause) (cellOf? : String → Option Cell)
      (value : domain.Carrier),
      bindings.target field = .column ⟨column, .str⟩ →
      Clause.ofRangeFilter dialect bindings field filter = .ok clause →
      cellOf? column = some (.text (domain.display value)) →
      ∃ truth, clause.behindWhere.truth? dialect cellOf? = some truth ∧
        ((truth = .yes ↔
            filter.accepts value = true ∧
              ¬ (Filter.range filter).TouchesBound (domain.toCell value)) ↔
          filter.ComparesAsText value) := by
  constructor
  · intro left right plain
    exact domain.order_eq_lt_iff_display plain left right
  · intro dialect bindings field column filter clause cellOf? value texts compiled stored
    obtain ⟨truth, read, yes⟩ := Clause.truth?_ofRangeFilter texts compiled stored
    refine ⟨truth, read, ?_⟩
    rw [yes]
    rcases Clause.plain_of_ofRangeFilter texts compiled with unbounded | ⟨plain, ordered⟩
    · obtain ⟨mode, minimum, maximum⟩ := filter
      simp only [RangeFilter.isUnbounded, Bool.and_eq_true, Option.isNone_iff_eq_none] at unbounded
      obtain ⟨rfl, rfl⟩ := unbounded
      exact iff_of_true Iff.rfl trivial
    · by_cases touches : (Filter.range filter).TouchesBound (domain.toCell value)
      · have single := ((Filter.touchesBound_range_iff filter value).mp touches).2
        exact iff_of_true (iff_of_false (fun both => both.2 touches) fun both => both.2 touches)
          (RangeFilter.comparesAsText_of_singleBound single)
      · rw [and_iff_left touches, and_iff_left touches, ← Bool.eq_iff_iff]
        exact RangeFilter.accepts_display_iff plain ordered value

/-- A field of integers that is stored as texts. -/
def storedCodes : Bindings :=
  Bindings.empty.bind .eventCode ⟨"code", .str⟩

/-- The codes nine and ten. -/
def shortCodes : RangeFilter .integer :=
  ⟨.include, some 9, some 10⟩

/-- A stored code below the bounds of a range, which compares as texts about it. -/
theorem text_ranges_follow_order_iff_below :
    ∃ clause, Clause.ofRangeFilter .postgres storedCodes .eventCode shortCodes = .ok clause ∧
      ∃ truth, clause.behindWhere.truth? .postgres (fun _ => some (.text "5")) = some truth ∧
        ((truth = .yes ↔
            shortCodes.accepts 5 = true ∧ ¬ (Filter.range shortCodes).TouchesBound (.integer 5)) ↔
          shortCodes.ComparesAsText 5) :=
  ⟨_, rfl, (text_ranges_follow_order_iff .integer).2 .postgres storedCodes .eventCode "code"
    shortCodes _ (fun _ => some (.text "5")) 5 rfl rfl rfl⟩

/-- Nine comes before ten and its text does not, so a range of codes that is accepted
on a column of texts rejects the text of a code that it accepts. -/
theorem text_range_rejects_nine :
    Domain.integer.order 9 10 = .lt ∧
      compare (Domain.integer.display 9) (Domain.integer.display 10) ≠ .lt ∧
      ∃ clause, Clause.ofRangeFilter .postgres storedCodes .eventCode shortCodes = .ok clause ∧
        clause.behindWhere.truth? .postgres (fun _ => some (.text (Domain.integer.display 9))) =
          some .no ∧
        shortCodes.accepts 9 = true ∧ shortCodes.singleBound? = none :=
  ⟨by decide, by decide, _, rfl, by decide +kernel, by decide, rfl⟩

end EventSieve
