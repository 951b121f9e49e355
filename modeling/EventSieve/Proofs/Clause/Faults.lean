import EventSieve.Filter.Document
import EventSieve.Frame.Mask
import EventSieve.Proofs.Clause.Compilation
import EventSieve.Proofs.FirstFault

/-!
# Which filters can be compiled, and the fault that is reported otherwise

Everything that is wrong with a valid collection can be listed: for each field in
turn, that its filter has no single column; or else that a range of versions meets
a column of texts, and then every value that does not convert to the type of the
column or becomes null there, in the order of the set, or the minimum before the
maximum. A clause can be made when nothing is wrong, and otherwise the first entry
of the list is reported, whatever the dialect.

Masks need the columns alone, so what is wrong for them is the part of that list
that is about columns. A collection that contradicts itself is refused by both
before anything else is looked at, and one that was read from a document does not
contradict itself.
-/

namespace EventSieve

open EventSieve.Filter (Domain Field)

section

variable {domain : Domain}

/-- The values that a filter compares with: the elements of its set in their order, or
the minimum of its range before the maximum. -/
def Filter.values : Filter domain → List domain.Carrier
  | .unrestricted => []
  | .set filter => filter.elements.toList
  | .range filter => filter.minimum.toList ++ filter.maximum.toList

/-- Whether a filter is a range. -/
def Filter.isRange : Filter domain → Bool
  | .range _ => true
  | _ => false

/-- What is wrong with a value on a column: it does not convert to the type of the
column, or it becomes null there. -/
def Binding.valueFaults (binding : Binding) (value : domain.Carrier) : List FilterError :=
  match (domain.toCell value).convert binding.type with
  | .error source => [.elementType binding.column (domain.display value) source]
  | .ok .null => [.nullElement binding.column (domain.display value)]
  | .ok _ => []

/-- What is wrong with the order of a filter on a column: versions do not have the
order of their texts. -/
def Binding.orderFaults (binding : Binding) (filter : Filter domain) : List FilterError :=
  if domain = .version && filter.isRange && Condition.comparesText binding.type then
    [.textOrderedRange binding.column]
  else []

/-- What is wrong with a filter on a column: its order comes before its values. -/
def Binding.faults (binding : Binding) (filter : Filter domain) : List FilterError :=
  binding.orderFaults filter ++ filter.values.flatMap binding.valueFaults

end

/-- What is wrong with the column behind a field. -/
def Bindings.columnGaps (bindings : Bindings) (field : Field) : List FilterError :=
  match bindings.target field with
  | .column _ => []
  | .composite => [.compositeBinding field]
  | .missing => [.unbound field]

/-- What is wrong with the column behind a field whose filter restricts something. -/
def Bindings.gaps (bindings : Bindings) (field : Field) (filter : Filter field.domain) :
    List FilterError :=
  if filter.isTrivial then [] else bindings.columnGaps field

/-- What is wrong with the filter of a field: its column comes before everything that
is about the column. -/
def Bindings.faults (bindings : Bindings) (field : Field) (filter : Filter field.domain) :
    List FilterError :=
  if filter.isTrivial then []
  else match bindings.target field with
    | .column binding => binding.faults filter
    | .composite => [.compositeBinding field]
    | .missing => [.unbound field]

namespace FilterCollection

/-- What is wrong with the columns behind the filters of a collection, in the order of
the fields. -/
def gaps (collection : FilterCollection) (bindings : Bindings) : List FilterError :=
  Field.all.flatMap fun field => bindings.gaps field (collection.filter field)

/-- What is wrong with the filters of a collection on their columns, in the order of the
fields. -/
def faults (collection : FilterCollection) (bindings : Bindings) : List FilterError :=
  Field.all.flatMap fun field => bindings.faults field (collection.filter field)

end FilterCollection

section

variable {domain : Domain}

namespace Condition

/-- Binding a value reports what is wrong with it on its column. -/
theorem reports_bindValue (binding : Binding) (value : domain.Carrier) :
    Reports (bindValue binding value) (binding.valueFaults value) := by
  simp only [bindValue, Binding.valueFaults]
  cases (domain.toCell value).convert binding.type with
  | error source => rfl
  | ok converted =>
    cases converted with
    | null => rfl
    | _ => exact ⟨_, rfl⟩

/-- The condition of a set reports the faults of its elements. -/
theorem reports_ofSet (binding : Binding) (filter : SetFilter domain) :
    Reports (ofSet binding filter) (filter.elements.toList.flatMap binding.valueFaults) := by
  obtain ⟨mode, ⟨elements, ascending⟩⟩ := filter
  cases elements with
  | nil =>
    match mode with
    | .include => exact ⟨_, rfl⟩
    | .exclude => exact ⟨_, rfl⟩
  | cons element rest =>
    exact (Reports.mapM fun value _ => reports_bindValue binding value).map _

/-- The comparison of a range reports the faults of its bounds. Bounds are bound one after
the other, the minimum first, so the faults of the minimum come before those of the maximum
and each bound reports its own. -/
theorem reports_rangeComparison (binding : Binding) (filter : RangeFilter domain) :
    Reports (rangeComparison binding filter)
      ((Filter.range filter).values.flatMap binding.valueFaults) := by
  obtain ⟨mode, minimum, maximum⟩ := filter
  match minimum, maximum with
  | none, none => exact ⟨_, rfl⟩
  | some lower, some upper =>
    have both : (Filter.range ⟨mode, some lower, some upper⟩).values.flatMap binding.valueFaults =
        binding.valueFaults lower ++ binding.valueFaults upper := by
      simp [Filter.values]
    rw [both]
    exact (reports_bindValue binding lower).bind fun _ _ => (reports_bindValue binding upper).map _
  | some lower, none =>
    have single : (Filter.range ⟨mode, some lower, none⟩).values.flatMap binding.valueFaults =
        binding.valueFaults lower := by
      simp [Filter.values]
    rw [single]
    exact (reports_bindValue binding lower).map _
  | none, some upper =>
    have single : (Filter.range ⟨mode, none, some upper⟩).values.flatMap binding.valueFaults =
        binding.valueFaults upper := by
      simp [Filter.values]
    rw [single]
    exact (reports_bindValue binding upper).map _

/-- The condition of a range whose bounds are in order reports a fault of its order
before those of its bounds. -/
theorem reports_ofRange {binding : Binding} {filter : RangeFilter domain}
    (ordered : FilterCollection.checkBounds binding.column filter = .ok ()) :
    Reports (ofRange binding filter) (binding.faults (.range filter)) := by
  have order : domain.ownOrder = decide (domain = .version) := by
    cases domain <;> rfl
  rw [ofRange, ordered, order, Binding.faults, Binding.orderFaults]
  simp only [Filter.isRange, Bool.and_true]
  cases decide (domain = .version) && comparesText binding.type with
  | true => rfl
  | false => exact (reports_rangeComparison binding filter).map _

/-- The condition of a filter on a column reports what is wrong with the filter
there. -/
theorem reports_ofFilter {binding : Binding} {field : Field} {filter : Filter field.domain}
    (valid : FilterCollection.checkField field filter = .ok ()) :
    Reports (ofFilter binding filter) (binding.faults filter) := by
  cases filter with
  | unrestricted =>
    have plain : binding.faults (Filter.unrestricted : Filter field.domain) = [] := by
      simp [Binding.faults, Binding.orderFaults, Filter.isRange, Filter.values]
    rw [plain]
    exact ⟨_, rfl⟩
  | set filter =>
    have elements : binding.faults (Filter.set filter) =
        filter.elements.toList.flatMap binding.valueFaults := by
      simp [Binding.faults, Binding.orderFaults, Filter.isRange, Filter.values]
    rw [elements]
    exact reports_ofSet binding filter
  | range filter =>
    obtain ⟨⟨⟩, _, ordered⟩ := bind_eq_ok_iff.mp valid
    exact reports_ofRange (FilterCollection.checkBounds_congr ordered binding.column)

/-- The condition of a field reports what is wrong with its filter. -/
theorem reports_ofField {bindings : Bindings} {field : Field} {filter : Filter field.domain}
    (valid : FilterCollection.checkField field filter = .ok ()) :
    Reports (ofField bindings field filter) (bindings.faults field filter) := by
  rw [ofField, Bindings.faults]
  split
  · exact ⟨_, rfl⟩
  · rw [Bindings.resolve]
    cases bindings.target field with
    | column binding => exact reports_ofFilter valid
    | composite => rfl
    | missing => rfl

end Condition

end

section

variable {bindings : Bindings} {collection : FilterCollection}

/-- The filter of a field in a valid collection is free of contradictions. -/
theorem FilterCollection.checkField_of_validate (valid : collection.validate = .ok ())
    (field : Field) : checkField field (collection.filter field) = .ok () :=
  forM_eq_ok_iff.mp valid field field.mem_all

/-- The clause of a valid collection reports what is wrong with the filters. -/
theorem Clause.reports_ofCollection (valid : collection.validate = .ok ()) (dialect : Dialect) :
    Reports (ofCollection dialect bindings collection) (collection.faults bindings) := by
  have conditions : Reports (Field.all.mapM fun field =>
      Condition.ofField bindings field (collection.filter field)) (collection.faults bindings) :=
    Reports.mapM fun field _ =>
      Condition.reports_ofField (FilterCollection.checkField_of_validate valid field)
  rw [ofCollection, Condition.ofCollection, valid]
  exact (conditions.map _).map _

/-- Looking up the column behind a field reports what is wrong with it. -/
theorem Bindings.reports_resolve (bindings : Bindings) (field : Field) :
    Reports (bindings.resolve field) (bindings.columnGaps field) := by
  rw [resolve, columnGaps]
  cases bindings.target field with
  | column binding => exact ⟨binding, rfl⟩
  | composite => rfl
  | missing => rfl

/-- The mask of a field reports what is wrong with its column. A mask converts nothing, so
whether its values suit the column is never asked; shape and bounds of a valid collection
pass. -/
theorem Mask.reports_ofFilter {field : Field} {filter : Filter field.domain}
    (valid : FilterCollection.checkField field filter = .ok ()) :
    Reports (ofFilter bindings field filter) (bindings.gaps field filter) := by
  obtain ⟨⟨⟩, shaped, ordered⟩ := bind_eq_ok_iff.mp valid
  rw [ofFilter.eq_def, Bindings.gaps]
  split
  · exact ⟨_, rfl⟩
  · rename_i active
    cases filter with
    | unrestricted => exact absurd rfl active
    | set filter =>
      have admitted : Condition.requireShape field .set = .ok () := shaped
      have mask : Reports (ofSetFilter bindings field filter) (bindings.columnGaps field) := by
        simp only [ofSetFilter, admitted]
        apply (bindings.reports_resolve field).bind_ok
        intro binding _
        split
        · exact ⟨_, rfl⟩
        · exact ⟨_, rfl⟩
      exact mask.map some
    | range filter =>
      have bounded : filter.isUnbounded = false := Bool.eq_false_iff.mpr active
      have admitted : Condition.requireShape field .range = .ok () := by
        simpa [FilterCollection.checkShape, Filter.shape?, bounded, Condition.requireShape]
          using shaped
      have mask : Reports (ofRangeFilter bindings field filter) (bindings.columnGaps field) := by
        simp only [ofRangeFilter, admitted]
        apply (bindings.reports_resolve field).bind_ok
        intro binding _
        rw [FilterCollection.checkBounds_congr ordered binding.column]
        exact ⟨_, rfl⟩
      exact mask.map some

/-- The masks of a valid collection report what is wrong with the columns. -/
theorem MaskClause.reports_ofCollection (valid : collection.validate = .ok ()) :
    Reports (ofCollection bindings collection) (collection.gaps bindings) := by
  have masks : Reports (Field.all.mapM fun field =>
      Mask.ofFilter bindings field (collection.filter field)) (collection.gaps bindings) :=
    Reports.mapM fun field _ =>
      Mask.reports_ofFilter (FilterCollection.checkField_of_validate valid field)
  rw [ofCollection, valid]
  exact masks.map _

end

section

variable {domain : Domain}

/-- Whether a filter can be compared with a column of a type: every value that it
compares with converts to the type and does not become null, and the filter is no
range of versions on a column of texts. -/
def Filter.Fits (filter : Filter domain) (type : ColumnType) : Prop :=
  (∀ value ∈ filter.values, ∃ converted,
      (domain.toCell value).convert type = .ok converted ∧ converted ≠ .null) ∧
    ¬ (domain = .version ∧ (∃ range, filter = .range range) ∧
      (type = .str ∨ ∃ variants, type = .enum variants))

/-- Nothing is wrong with a value that converts and does not become null. -/
theorem Binding.valueFaults_eq_nil_iff {binding : Binding} {value : domain.Carrier} :
    binding.valueFaults value = [] ↔ ∃ converted,
      (domain.toCell value).convert binding.type = .ok converted ∧ converted ≠ .null := by
  rw [valueFaults]
  cases (domain.toCell value).convert binding.type with
  | error source => simp
  | ok converted => cases converted <;> simp

/-- Nothing is wrong with the order of a filter that is no range of versions on texts. -/
theorem Binding.orderFaults_eq_nil_iff {binding : Binding} {filter : Filter domain} :
    binding.orderFaults filter = [] ↔
      ¬ (domain = .version ∧ (∃ range, filter = .range range) ∧
        (binding.type = .str ∨ ∃ variants, binding.type = .enum variants)) := by
  have range : filter.isRange = true ↔ ∃ range, filter = .range range := by
    cases filter <;> simp [Filter.isRange]
  have text : Condition.comparesText binding.type = true ↔
      binding.type = .str ∨ ∃ variants, binding.type = .enum variants := by
    cases binding.type <;> simp [Condition.comparesText]
  rw [orderFaults, ← range, ← text, ← and_assoc]
  simp only [ite_eq_right_iff, List.cons_ne_nil, imp_false, Bool.and_eq_true, decide_eq_true_eq]

/-- Nothing is wrong with a filter that fits its column. -/
theorem Binding.faults_eq_nil_iff {binding : Binding} {filter : Filter domain} :
    binding.faults filter = [] ↔ filter.Fits binding.type := by
  rw [faults, List.append_eq_nil_iff, orderFaults_eq_nil_iff, List.flatMap_eq_nil_iff, Filter.Fits,
    and_comm]
  simp only [valueFaults_eq_nil_iff]

end

section

variable {bindings : Bindings} {collection : FilterCollection}

/-- Nothing is wrong with a field whose filter restricts nothing, or fits the column of
the field. -/
theorem Bindings.faults_eq_nil_iff {field : Field} {filter : Filter field.domain} :
    bindings.faults field filter = [] ↔ (filter.isTrivial = false →
      ∃ binding, bindings.target field = .column binding ∧ filter.Fits binding.type) := by
  rw [faults]
  cases filter.isTrivial with
  | true => simp
  | false =>
    cases bindings.target field with
    | column binding => simp [Binding.faults_eq_nil_iff]
    | composite => simp
    | missing => simp

/-- Nothing is wrong with the column behind a field whose filter restricts nothing, or
which has a column. -/
theorem Bindings.gaps_eq_nil_iff {field : Field} {filter : Filter field.domain} :
    bindings.gaps field filter = [] ↔ (filter.isTrivial = false →
      ∃ binding, bindings.target field = .column binding) := by
  rw [gaps, columnGaps]
  cases filter.isTrivial with
  | true => simp
  | false => cases bindings.target field <;> simp

end

namespace FilterError

/-- Whether an error is about a collection by itself. -/
def isContradiction : FilterError → Bool
  | .shapeNotAllowed _ _ => true
  | .invertedRange _ _ _ => true
  | _ => false

/-- Whether an error is about what a filter compares with a column. -/
def concernsValues : FilterError → Bool
  | .elementType _ _ _ => true
  | .nullElement _ _ => true
  | .textOrderedRange _ => true
  | _ => false

end FilterError

section

variable {bindings : Bindings} {collection : FilterCollection}

/-- What is wrong with a filter on its column is about what it compares. -/
theorem Binding.concernsValues_of_mem {domain : Domain} {binding : Binding}
    {filter : Filter domain} {error : FilterError} (member : error ∈ binding.faults filter) :
    error.concernsValues = true := by
  rcases List.mem_append.mp member with order | values
  · rw [orderFaults] at order
    split at order
    · rw [List.mem_singleton.mp order]
      rfl
    · cases order
  · obtain ⟨value, _, own⟩ := List.mem_flatMap.mp values
    rw [valueFaults] at own
    split at own
    · rw [List.mem_singleton.mp own]
      rfl
    · rw [List.mem_singleton.mp own]
      rfl
    · cases own

/-- Either a field has no column, which is all that is wrong with its filter, or what is
wrong is about what the filter compares. -/
theorem Bindings.faults_eq_gaps_or (bindings : Bindings) (field : Field)
    (filter : Filter field.domain) :
    bindings.faults field filter = bindings.gaps field filter ∨
      (bindings.gaps field filter = [] ∧
        ∀ error ∈ bindings.faults field filter, error.concernsValues = true) := by
  rw [faults, gaps, columnGaps]
  cases filter.isTrivial with
  | true => exact .inl rfl
  | false =>
    cases bindings.target field with
    | column binding => exact .inr ⟨rfl, fun error member => Binding.concernsValues_of_mem member⟩
    | composite => exact .inl rfl
    | missing => exact .inl rfl

/-- The first fault of a collection, when it is not about what filters compare, is also the
first one that is about columns: fields before it have none. The induction goes along the
fields. As long as a field has no fault of its column, it has none at all, or its first one
is about what is compared, and then the error would be that. -/
theorem FilterCollection.head?_gaps_of_faults {error : FilterError}
    (first : (collection.faults bindings).head? = some error)
    (about : error.concernsValues = false) : (collection.gaps bindings).head? = some error := by
  rw [faults] at first
  rw [gaps]
  generalize Field.all = fields at first ⊢
  induction fields with
  | nil => cases first
  | cons field rest inductionHypothesis =>
    rw [List.flatMap_cons] at first ⊢
    rcases bindings.faults_eq_gaps_or field (collection.filter field) with same | ⟨none, values⟩
    · rw [same] at first
      cases own : bindings.gaps field (collection.filter field) with
      | nil =>
        rw [own] at first
        exact inductionHypothesis first
      | cons fault more =>
        rw [own] at first
        exact first
    · rw [none]
      cases own : bindings.faults field (collection.filter field) with
      | nil =>
        rw [own] at first
        exact inductionHypothesis first
      | cons fault more =>
        rw [own] at first values
        cases first
        rw [values _ List.mem_cons_self] at about
        cases about

/-- What is wrong with a column is no contradiction of the collection. -/
theorem Bindings.isContradiction_of_mem_gaps {field : Field} {filter : Filter field.domain}
    {error : FilterError} (member : error ∈ bindings.gaps field filter) :
    error.isContradiction = false := by
  rw [gaps, columnGaps] at member
  split at member
  · cases member
  · split at member
    · cases member
    · rw [List.mem_singleton.mp member]
      rfl
    · rw [List.mem_singleton.mp member]
      rfl

/-- What is wrong with a filter of a valid collection is no contradiction. -/
theorem Bindings.isContradiction_of_mem_faults {field : Field} {filter : Filter field.domain}
    {error : FilterError} (member : error ∈ bindings.faults field filter) :
    error.isContradiction = false := by
  rcases bindings.faults_eq_gaps_or field filter with same | ⟨_, values⟩
  · rw [same] at member
    exact isContradiction_of_mem_gaps member
  · have about := values error member
    cases error with
    | elementType | textOrderedRange | nullElement => rfl
    | shapeNotAllowed | invertedRange | unbound | compositeBinding | missingFrameColumn => cases about

/-- A collection that was read from a document is valid. -/
theorem FilterCollection.validate_of_read {text : String} (made : read text = .ok collection) :
    collection.validate = .ok () :=
  (read_eq_ok_iff.mp made).2.2.2

/-- Whether an error is what the validation of a collection ends with or, when the
collection is valid, the first of some faults. -/
def FilterCollection.FailsWith (collection : FilterCollection) (faults : List FilterError)
    (error : FilterError) : Prop :=
  collection.validate = .error error ∨
    (collection.validate = .ok () ∧ faults.head? = some error)

/-- A computation that validates a collection and then reports faults succeeds when the
collection is valid and there are none, and fails with the error of the validation or
the first fault. -/
theorem FilterCollection.reports_iff {Value : Type} {result : Except FilterError Value}
    {faults : List FilterError}
    (invalid : ∀ error, collection.validate = .error error → result = .error error)
    (valid : collection.validate = .ok () → Reports result faults) :
    ((∃ value, result = .ok value) ↔ collection.validate = .ok () ∧ faults = []) ∧
      ∀ error, result = .error error ↔ collection.FailsWith faults error := by
  simp only [FailsWith]
  cases checked : collection.validate with
  | error error =>
    simp [invalid error checked]
  | ok done =>
    have reports := valid checked
    simp [reports.ok_iff, reports.error_iff]

/-- Clauses are made of valid collections whose filters have columns that they fit, and
otherwise end with the error of the validation or the first fault. -/
theorem Clause.ofCollection_iff (dialect : Dialect) :
    ((∃ clause, ofCollection dialect bindings collection = .ok clause) ↔
        collection.validate = .ok () ∧ collection.faults bindings = []) ∧
      ∀ error, ofCollection dialect bindings collection = .error error ↔
        collection.FailsWith (collection.faults bindings) error := by
  apply FilterCollection.reports_iff
  · intro error invalid
    rw [ofCollection, Condition.ofCollection, invalid]
    rfl
  · intro valid
    exact reports_ofCollection valid dialect

/-- Masks are made of valid collections whose filters have columns, and otherwise end
with the error of the validation or the first fault that is about a column. -/
theorem MaskClause.ofCollection_iff :
    ((∃ masks, ofCollection bindings collection = .ok masks) ↔
        collection.validate = .ok () ∧ collection.gaps bindings = []) ∧
      ∀ error, ofCollection bindings collection = .error error ↔
        collection.FailsWith (collection.gaps bindings) error := by
  apply FilterCollection.reports_iff
  · intro error invalid
    rw [ofCollection, invalid]
    rfl
  · intro valid
    exact reports_ofCollection valid

/-- Nothing is wrong with a collection whose filters have columns that they fit. -/
theorem FilterCollection.faults_eq_nil_iff :
    collection.faults bindings = [] ↔ ∀ field, (collection.filter field).isTrivial = false →
      ∃ binding, bindings.target field = .column binding ∧
        (collection.filter field).Fits binding.type := by
  rw [faults, List.flatMap_eq_nil_iff]
  simp only [Bindings.faults_eq_nil_iff, Field.mem_all, true_imp_iff]

/-- Nothing is wrong with the columns behind a collection whose filters have columns. -/
theorem FilterCollection.gaps_eq_nil_iff :
    collection.gaps bindings = [] ↔ ∀ field, (collection.filter field).isTrivial = false →
      ∃ binding, bindings.target field = .column binding := by
  rw [gaps, List.flatMap_eq_nil_iff]
  simp only [Bindings.gaps_eq_nil_iff, Field.mem_all, true_imp_iff]

/-- The error of a valid collection is no contradiction, whichever of the two is made. -/
theorem FilterCollection.isContradiction_of_valid (valid : collection.validate = .ok ())
    {error : FilterError}
    (failed : collection.FailsWith (collection.faults bindings) error ∨
      collection.FailsWith (collection.gaps bindings) error) : error.isContradiction = false := by
  simp only [FailsWith, valid, reduceCtorEq, true_and, false_or] at failed
  rcases failed with first | first
  · obtain ⟨field, _, own⟩ := List.mem_flatMap.mp (List.mem_of_mem_head? first)
    exact Bindings.isContradiction_of_mem_faults own
  · obtain ⟨field, _, own⟩ := List.mem_flatMap.mp (List.mem_of_mem_head? first)
    exact Bindings.isContradiction_of_mem_gaps own

end

/-- In every dialect a clause can be made of a collection exactly when it is valid and each
filter that restricts something has a column which it fits. Otherwise it ends with the error
of the validation, or with the first fault: fields in their order, and for each field first
its column, then the order of versions, then the values in their order. Masks need that the
collection is valid and that filters have columns. When they cannot be made, no clause can;
and an error of a clause that is not about what filters compare is theirs too. A collection
from a document ends with no contradiction.

Proof: for each field the faults of its filter are listed in the order in which they would
be found, and each step of the compilation is shown to report such a list: it succeeds when
the list is empty and ends with its first entry otherwise. Reports compose along the fields.
Dialects are never asked, so the list is the same in all of them; masks report the entries
about columns. A document is only read when its collection is valid, and no fault of a valid
collection is a contradiction. -/
theorem compilation_ends_with_first_fault (bindings : Bindings) (collection : FilterCollection) :
    (∀ dialect,
      ((∃ clause, Clause.ofCollection dialect bindings collection = .ok clause) ↔
        collection.validate = .ok () ∧ ∀ field, (collection.filter field).isTrivial = false →
          ∃ binding, bindings.target field = .column binding ∧
            (collection.filter field).Fits binding.type) ∧
      ∀ error, Clause.ofCollection dialect bindings collection = .error error ↔
        collection.FailsWith (collection.faults bindings) error) ∧
    ((∃ masks, MaskClause.ofCollection bindings collection = .ok masks) ↔
      collection.validate = .ok () ∧ ∀ field, (collection.filter field).isTrivial = false →
        ∃ binding, bindings.target field = .column binding) ∧
    (∀ error, MaskClause.ofCollection bindings collection = .error error →
      ∀ dialect, ∃ other, Clause.ofCollection dialect bindings collection = .error other) ∧
    (∀ dialect error, Clause.ofCollection dialect bindings collection = .error error →
      error.concernsValues = false →
        MaskClause.ofCollection bindings collection = .error error) ∧
    ((∃ text, FilterCollection.read text = .ok collection) → ∀ error,
      ((∃ dialect, Clause.ofCollection dialect bindings collection = .error error) ∨
        MaskClause.ofCollection bindings collection = .error error) →
          error.isContradiction = false) := by
  obtain ⟨masksMade, masksFail⟩ := @MaskClause.ofCollection_iff bindings collection
  have clauses := @Clause.ofCollection_iff bindings collection
  refine ⟨?_, ?_, ?_, ?_, ?_⟩
  · intro dialect
    rw [(clauses dialect).1, FilterCollection.faults_eq_nil_iff]
    exact ⟨Iff.rfl, (clauses dialect).2⟩
  · rw [masksMade, FilterCollection.gaps_eq_nil_iff]
  · intro error failed dialect
    cases made : Clause.ofCollection dialect bindings collection with
    | error other => exact ⟨other, rfl⟩
    | ok clause =>
      obtain ⟨valid, fitting⟩ := (clauses dialect).1.mp ⟨clause, made⟩
      have columns : collection.gaps bindings = [] := by
        apply FilterCollection.gaps_eq_nil_iff.mpr
        intro field active
        obtain ⟨binding, target, _⟩ := FilterCollection.faults_eq_nil_iff.mp fitting field active
        exact ⟨binding, target⟩
      obtain ⟨masks, built⟩ := masksMade.mpr ⟨valid, columns⟩
      cases built.symm.trans failed
  · intro dialect error failed about
    apply (masksFail error).mpr
    exact ((clauses dialect).2 error |>.mp failed).imp_right fun ⟨valid, first⟩ =>
      ⟨valid, FilterCollection.head?_gaps_of_faults first about⟩
  · rintro ⟨text, made⟩ error failed
    apply FilterCollection.isContradiction_of_valid (FilterCollection.validate_of_read made)
    refine failed.imp ?_ (masksFail error).mp
    rintro ⟨dialect, own⟩
    exact ((clauses dialect).2 error).mp own

/-- A column of texts for versions, and none for codes. -/
def partialBindings : Bindings :=
  Bindings.empty.bind .appVersion ⟨"version", .str⟩

/-- A document with a range of versions and a range of codes. -/
def rangesDocument : String :=
  "\x7b\"version\":\x7b\"app_version\":\x7b\"min\":\"2\"\x7d\x7d," ++
    "\"event\":\x7b\"event_code\":\x7b\"max\":7\x7d\x7d\x7d"

/-- The filters that the document spells. -/
def rangesFilters : FilterCollection :=
  (FilterCollection.empty.set .appVersion (.range ⟨.include, some (Version.ofText "2"), none⟩)).set
    .eventCode (.range ⟨.include, none, some 7⟩)

/-- Clauses end with the order of the versions, which come first, and masks with the
missing column of the codes. Without any columns both end with the missing column of
the versions. -/
theorem compilation_ends_with_first_fault_ranges :
    FilterCollection.read rangesDocument = .ok rangesFilters ∧
      (∀ dialect, Clause.ofCollection dialect partialBindings rangesFilters =
        .error (.textOrderedRange "version")) ∧
      MaskClause.ofCollection partialBindings rangesFilters = .error (.unbound .eventCode) ∧
      (FilterError.unbound .eventCode).isContradiction = false ∧
      (∀ dialect, ∃ other, Clause.ofCollection dialect partialBindings rangesFilters =
        .error other) ∧
      Clause.ofCollection .bigquery .empty rangesFilters = .error (.unbound .appVersion) ∧
      MaskClause.ofCollection .empty rangesFilters = .error (.unbound .appVersion) := by
  have document : FilterCollection.read rangesDocument = .ok rangesFilters := by cbv
  have masks : MaskClause.ofCollection partialBindings rangesFilters =
      .error (.unbound .eventCode) := rfl
  have bare : Clause.ofCollection .bigquery .empty rangesFilters =
      .error (.unbound .appVersion) := rfl
  obtain ⟨clauses, _, failing, _, read⟩ :=
    compilation_ends_with_first_fault partialBindings rangesFilters
  obtain ⟨_, _, _, shared, _⟩ := compilation_ends_with_first_fault .empty rangesFilters
  refine ⟨document, ?_, masks, ?_, failing _ masks, bare, shared .bigquery _ bare rfl⟩
  · intro dialect
    exact ((clauses dialect).2 _).mpr (.inr ⟨rfl, rfl⟩)
  · exact read ⟨rangesDocument, document⟩ _ (.inr masks)

end EventSieve
