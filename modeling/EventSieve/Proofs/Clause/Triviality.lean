import EventSieve.Proofs.Clause.MaskAgreement

/-!
# Filters that restrict nothing

A set that removes nothing and a range without bounds accept every value. Where a filter of
any shape is compiled they have an empty clause and no mask, whatever the bindings, and so
has either shape on its own as a clause.

The masks of one shape on its own do not ask whether the filter restricts anything. They
read each cell into the domain of the filter first, so the mask of such a filter passes
exactly the cells that have a reading: a null, or a text where an integer is read, does not
pass a filter that restricts nothing.
-/

namespace EventSieve

open EventSieve.Filter (Domain ElementSet Field)

/-- Whether a mask passes the cells of a column that have a reading in a domain. -/
structure Mask.PassesReadable (mask : Mask) (column : String) (domain : Domain) : Prop where
  column : mask.column = column
  accepts : ∀ cell, mask.accepts cell = true ↔ ∃ value, domain.ofCell? cell = some value

section

variable {domain : Domain} {bindings : Bindings} {field : Field} {binding : Binding}

/-- A shape that a field admits is not refused. -/
theorem Condition.requireShape_of_allows {shape : Filter.Shape}
    (allowed : field.allows shape = true) : requireShape field shape = .ok () :=
  if_pos allowed

/-- A set that restricts nothing removes what is among no elements. -/
theorem SetFilter.eq_of_isTrivial {filter : SetFilter domain}
    (trivial : (Filter.set filter).isTrivial = true) :
    filter.elements.isEmpty = true ∧ filter.mode = .exclude := by
  simpa [Filter.isTrivial, and_comm] using trivial

/-- Bounds that are not there are in order. -/
theorem FilterCollection.checkBounds_of_isUnbounded {column : String} {filter : RangeFilter domain}
    (unbounded : filter.isUnbounded = true) : checkBounds column filter = .ok () := by
  obtain ⟨mode, minimum, maximum⟩ := filter
  obtain ⟨low, high⟩ := Bool.and_eq_true_iff.mp unbounded
  cases Option.isNone_iff_eq_none.mp low
  cases Option.isNone_iff_eq_none.mp high
  rfl

namespace Clause

variable {dialect : Dialect}

/-- A filter that restricts nothing has an empty clause. -/
theorem ofFilter_of_isTrivial {filter : Filter domain} (trivial : filter.isTrivial = true) :
    ofFilter dialect bindings field filter = .ok empty := by
  rw [ofFilter.eq_def, if_pos trivial]

/-- So has a set that restricts nothing, on its own. -/
theorem ofSetFilter_of_isTrivial {filter : SetFilter domain}
    (allowed : field.allows .set = true) (target : bindings.target field = .column binding)
    (trivial : (Filter.set filter).isTrivial = true) :
    ofSetFilter dialect bindings field filter = .ok empty := by
  obtain ⟨none, removes⟩ := SetFilter.eq_of_isTrivial trivial
  have made : Condition.ofSet binding filter = .ok Option.none := by
    rw [Condition.ofSet, if_pos none, removes]
  simp only [ofSetFilter, Condition.requireShape_of_allows allowed,
    Bindings.resolve_eq_ok_iff.mpr target, made, bind, Except.bind]
  rfl

/-- So has a range without bounds, on its own, and nothing else is asked of it. -/
theorem ofRangeFilter_of_isTrivial {filter : RangeFilter domain}
    (trivial : (Filter.range filter).isTrivial = true) :
    ofRangeFilter dialect bindings field filter = .ok empty :=
  if_pos trivial

end Clause

namespace Mask

/-- A filter that restricts nothing has no mask. -/
theorem ofFilter_of_isTrivial {filter : Filter domain} (trivial : filter.isTrivial = true) :
    ofFilter bindings field filter = .ok none := by
  rw [ofFilter.eq_def, if_pos trivial]

/-- The reading mask of a filter that restricts nothing passes the cells that have a reading. -/
theorem passesReadable_ofReading {filter : Filter domain} (trivial : filter.isTrivial = true)
    (column : String) : (ofReading column filter).PassesReadable column domain where
  column := rfl
  accepts cell := by
    rw [ofReading_accepts_iff]
    constructor
    · rintro ⟨value, read, _⟩
      exact ⟨value, read⟩
    · rintro ⟨value, read⟩
      exact ⟨value, read, filter.accepts_of_isTrivial trivial value⟩

/-- A set that restricts nothing has a mask on its own, which passes these cells. -/
theorem passesReadable_ofSetFilter {filter : SetFilter domain}
    (allowed : field.allows .set = true) (target : bindings.target field = .column binding)
    (trivial : (Filter.set filter).isTrivial = true) :
    ∃ mask, ofSetFilter bindings field filter = .ok mask ∧
      mask.PassesReadable binding.column domain := by
  obtain ⟨mask, made, column, reads⟩ :=
    ofSetFilter_of_target filter (Condition.requireShape_of_allows allowed) target
  refine ⟨mask, made, column, fun cell => ?_⟩
  rw [reads]
  exact (passesReadable_ofReading trivial binding.column).accepts cell

/-- So has a range without bounds. -/
theorem passesReadable_ofRangeFilter {filter : RangeFilter domain}
    (allowed : field.allows .range = true) (target : bindings.target field = .column binding)
    (trivial : (Filter.range filter).isTrivial = true) :
    ∃ mask, ofRangeFilter bindings field filter = .ok mask ∧
      mask.PassesReadable binding.column domain := by
  refine ⟨_, ?_, passesReadable_ofReading trivial binding.column⟩
  simp only [ofRangeFilter, Condition.requireShape_of_allows allowed,
    Bindings.resolve_eq_ok_iff.mpr target, FilterCollection.checkBounds_of_isUnbounded trivial,
    bind, Except.bind]
  rfl

end Mask

/-- A filter that restricts nothing, of a shape that its field admits, has an empty clause
and no mask on a column. On its own a shape has an empty clause too, but a mask, and this
passes exactly the cells that have a reading. The mask is the one place where the two ways
differ: a cell that is null or cannot be read does not pass it, though the filter removes
nothing.

Proof: a filter that restricts nothing is a set that removes no elements or a range without
bounds. Neither is given a condition or a mask by the way of a single filter, which looks at
this first. The way of a shape has no such look: it reads the cell, and accepts what has a
reading. -/
theorem trivial_filters_restrict_nothing (dialect : Dialect)
    (target : bindings.target field = .column binding) :
    (∀ filter : SetFilter domain, field.allows .set = true →
      (Filter.set filter).isTrivial = true →
        Clause.ofFilter dialect bindings field (.set filter) = .ok Clause.empty ∧
        Clause.ofSetFilter dialect bindings field filter = .ok Clause.empty ∧
        Mask.ofFilter bindings field (.set filter) = .ok none ∧
        ∃ mask, Mask.ofSetFilter bindings field filter = .ok mask ∧
          mask.PassesReadable binding.column domain) ∧
    ∀ filter : RangeFilter domain, field.allows .range = true →
      (Filter.range filter).isTrivial = true →
        Clause.ofFilter dialect bindings field (.range filter) = .ok Clause.empty ∧
        Clause.ofRangeFilter dialect bindings field filter = .ok Clause.empty ∧
        Mask.ofFilter bindings field (.range filter) = .ok none ∧
        ∃ mask, Mask.ofRangeFilter bindings field filter = .ok mask ∧
          mask.PassesReadable binding.column domain := by
  constructor
  · intro filter allowed trivial
    exact ⟨Clause.ofFilter_of_isTrivial trivial,
      Clause.ofSetFilter_of_isTrivial allowed target trivial, Mask.ofFilter_of_isTrivial trivial,
      Mask.passesReadable_ofSetFilter allowed target trivial⟩
  · intro filter allowed trivial
    exact ⟨Clause.ofFilter_of_isTrivial trivial, Clause.ofRangeFilter_of_isTrivial trivial,
      Mask.ofFilter_of_isTrivial trivial,
      Mask.passesReadable_ofRangeFilter allowed target trivial⟩

end

/-- The set that removes no session. -/
def noSession : SetFilter .text :=
  ⟨.exclude, (⟨[], trivial⟩ : ElementSet .text)⟩

/-- The range of all codes. -/
def allCodes : RangeFilter .integer :=
  ⟨.include, none, none⟩

/-- A set that removes no session and a range of all codes. -/
theorem trivial_filters_restrict_nothing_sessions :
    (∃ mask, Mask.ofSetFilter (Bindings.empty.bind .session ⟨"session_id", .str⟩) .session
        noSession = .ok mask ∧ mask.PassesReadable "session_id" .text) ∧
    ∃ mask, Mask.ofRangeFilter (Bindings.empty.bind .eventCode ⟨"code", .int⟩) .eventCode
        allCodes = .ok mask ∧ mask.PassesReadable "code" .integer := by
  have sessions := @trivial_filters_restrict_nothing .text
    (Bindings.empty.bind .session ⟨"session_id", .str⟩) .session ⟨"session_id", .str⟩ .bigquery rfl
  have codes := @trivial_filters_restrict_nothing .integer
    (Bindings.empty.bind .eventCode ⟨"code", .int⟩) .eventCode ⟨"code", .int⟩ .bigquery rfl
  exact ⟨(sessions.1 noSession rfl rfl).2.2.2, (codes.2 allCodes rfl rfl).2.2.2⟩

/-- A null does not pass the mask of a set that removes no session, and neither does a text
that of a range of all codes, although both filters restrict nothing. -/
theorem trivial_masks_reject_unreadable :
    (∃ mask, (Filter.set noSession).isTrivial = true ∧
      Mask.ofSetFilter (Bindings.empty.bind .session ⟨"session_id", .str⟩) .session
        noSession = .ok mask ∧ mask.accepts .null = false) ∧
    ∃ mask, (Filter.range allCodes).isTrivial = true ∧
      Mask.ofRangeFilter (Bindings.empty.bind .eventCode ⟨"code", .int⟩) .eventCode
        allCodes = .ok mask ∧ mask.accepts (.text "menu") = false :=
  ⟨⟨_, rfl, rfl, rfl⟩, _, rfl, rfl, rfl⟩

end EventSieve
