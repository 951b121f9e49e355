import EventSieve.Proofs.Clause.Agreement
import EventSieve.Proofs.Clause.Reading

/-!
# Clauses and masks keep the same rows

A collection is turned into a clause for a database and into masks over a frame
on two ways that only share the checks of the collection. On columns of the types
that fit the filtered fields both say the same about every row, whatever the
dialect: the clause is true exactly when the masks hold, but for rows with a cell
that is the single bound of a filter which keeps what is on one side of it.

Whenever a clause can be made, the masks can be made too, so nothing is asked of
them beforehand.
-/

namespace EventSieve

open EventSieve.Filter (Domain Field)

/-- The cell of a row under a column name. -/
def Frame.cell? (frame : Frame) (row : Row) (name : String) : Option Cell :=
  (frame.columnIndex? name).bind fun index => row[index]?

/-- Whether filters are bound to columns of the types that fit their fields, and
versions are filtered by sets only. -/
def Bindings.Suit (bindings : Bindings) (collection : FilterCollection) : Prop :=
  ∀ field binding, bindings.Compares collection field binding →
    binding.type = field.domain.columnType ∧
      (field.domain = .version → ∃ set, collection.filter field = .set set)

/-- Whether the cells of a row that filters are compared with are native to them. -/
def Frame.IsNativeRow (frame : Frame) (bindings : Bindings) (collection : FilterCollection)
    (row : Row) : Prop :=
  ∀ field binding cell, bindings.Compares collection field binding →
    frame.cell? row binding.column = some cell → field.domain.IsNative cell

/-- Whether a cell of a row is the single bound of a filter that keeps what is on
one side of it. -/
def Frame.TouchesBound (frame : Frame) (bindings : Bindings) (collection : FilterCollection)
    (row : Row) : Prop :=
  ∃ field binding cell, bindings.Compares collection field binding ∧
    frame.cell? row binding.column = some cell ∧ (collection.filter field).TouchesBound cell

/-- A test for the condition of a filter says yes to the cells that pass the mask of the
filter, but for a single bound up to which values are kept. A native cell is null or the
value of an element. Nothing is true of null, and a mask rejects it; about a value the test
and the filter agree by the form of the filter. -/
theorem Filter.truthAt_iff {domain : Domain} {binding : Binding} {filter : Filter domain}
    {condition : Condition} (suited : binding.type = domain.columnType)
    (sets : domain = .version → ∃ set, filter = .set set) (active : filter.isTrivial = false)
    (made : Condition.ofFilter binding filter = .ok (some condition)) {cell : Cell}
    (native : domain.IsNative cell) :
    (Clause.Test.ofCondition condition).truthAt cell = .yes ↔
      (Mask.ofReading binding.column filter).accepts cell = true ∧ ¬ filter.TouchesBound cell := by
  obtain ⟨rejects, accepts⟩ := Mask.ofReading_accepts binding.column filter
  rcases native.cases with rfl | ⟨value, rfl⟩
  · obtain ⟨comparison, same, filled⟩ := Condition.ofFilter_eq_ok active made
    cases same
    rw [rejects]
    apply iff_of_false (Clause.Test.truthAt_null_ne_yes filled)
    intro both
    exact Bool.false_ne_true both.1
  · rw [accepts value]
    cases filter with
    | unrestricted => cases active
    | set filter =>
      have apart : ¬ (Filter.set filter).TouchesBound (domain.toCell value) := by
        rintro ⟨range, bound, same, _⟩
        cases same
      rw [and_iff_left apart]
      exact SetFilter.truthAt_iff suited made value
    | range filter =>
      have plain : domain.ownOrder = false := by
        cases domain with
        | version =>
          obtain ⟨set, same⟩ := sets rfl
          cases same
        | text | integer | instant => rfl
      obtain ⟨_, _, comparison, compared, same⟩ := Condition.ofRange_eq_ok_iff.mp made
      cases comparison with
      | none => cases same
      | some comparison =>
        cases same
        exact RangeFilter.truthAt_iff suited plain compared value

namespace Mask

/-- A cell passes the mask of a filter when it has a reading that the filter accepts. -/
theorem ofReading_accepts_iff {domain : Domain} {column : String} {filter : Filter domain}
    {cell : Cell} :
    (ofReading column filter).accepts cell = true ↔
      ∃ value, domain.ofCell? cell = some value ∧ filter.accepts value = true := by
  simp only [ofReading]
  cases domain.ofCell? cell with
  | none => simp
  | some value => simp

/-- A set filter of a field with a column has a mask on that column, and a cell passes it
when it has a reading that the filter accepts. The empty set whose elements are kept has a
mask of its own, which rejects every cell without reading it; a reading would not be in the
set either. -/
theorem ofSetFilter_of_target {domain : Domain} {bindings : Bindings} {field : Field}
    {binding : Binding} (filter : SetFilter domain)
    (admitted : Condition.requireShape field .set = .ok ())
    (resolved : bindings.target field = .column binding) :
    ∃ mask, ofSetFilter bindings field filter = .ok mask ∧ mask.column = binding.column ∧
      ∀ cell, mask.accepts cell = (ofReading binding.column (.set filter)).accepts cell := by
  have found := Bindings.resolve_eq_ok_iff.mpr resolved
  simp only [ofSetFilter, admitted, found, bind, Except.bind]
  by_cases nothing : (filter.elements.isEmpty && filter.mode = .include) = true
  · obtain ⟨empty, keeps⟩ := Bool.and_eq_true_iff.mp nothing
    have none : filter.elements.toList = [] := List.isEmpty_iff.mp empty
    have mode : filter.mode = .include := of_decide_eq_true keeps
    rw [if_pos nothing]
    refine ⟨_, rfl, rfl, ?_⟩
    intro cell
    cases read : domain.ofCell? cell <;>
      simp [never, ofReading, read, Filter.accepts, SetFilter.accepts, Filter.ElementSet.contains,
        none, mode, Filter.Mode.apply]
  · rw [if_neg nothing]
    exact ⟨_, rfl, rfl, fun _ => rfl⟩

/-- A filter that restricts something has a mask on the column of its field, and a cell
passes it when it has a reading that the filter accepts. Its shape and bounds have been
checked with the collection, so the checks on the way pass. -/
theorem ofFilter_of_target {bindings : Bindings} {field : Field} {binding : Binding}
    {filter : Filter field.domain} (active : filter.isTrivial = false)
    (valid : FilterCollection.checkField field filter = .ok ())
    (resolved : bindings.target field = .column binding) :
    ∃ mask, ofFilter bindings field filter = .ok (some mask) ∧ mask.column = binding.column ∧
      ∀ cell, mask.accepts cell = (ofReading binding.column filter).accepts cell := by
  obtain ⟨⟨⟩, shaped, checked⟩ := bind_eq_ok_iff.mp valid
  cases filter with
  | unrestricted => cases active
  | set filter =>
    obtain ⟨mask, made, reads⟩ := ofSetFilter_of_target filter shaped resolved
    rw [ofFilter, if_neg (by simp [active])]
    simp only [made]
    exact ⟨mask, rfl, reads⟩
  | range filter =>
    have found := Bindings.resolve_eq_ok_iff.mpr resolved
    have ordered : FilterCollection.checkBounds binding.column filter = .ok () :=
      FilterCollection.checkBounds_congr checked binding.column
    have admitted : Condition.requireShape field .range = .ok () := by
      have bounded : filter.isUnbounded = false := active
      simpa [FilterCollection.checkShape, Filter.shape?, bounded, Condition.requireShape] using shaped
    rw [ofFilter, if_neg (by simp [active])]
    simp only [ofRangeFilter, admitted, found, ordered, bind, Except.bind]
    exact ⟨_, rfl, rfl, fun _ => rfl⟩

end Mask

/-- Whether a mask passes the cells that have a reading which the filter of a field
accepts. -/
def Mask.Reads (mask : Mask) (collection : FilterCollection) (field : Field) (binding : Binding) :
    Prop :=
  mask.column = binding.column ∧ ∀ cell,
    mask.accepts cell = (ofReading binding.column (collection.filter field)).accepts cell

/-- A valid collection whose filters have columns has masks, one for each filter that
restricts something.

Proof: a field whose filter restricts nothing gives no mask, and every other field gives one
that reads the cells of its column. So the traversal of the fields succeeds, and its masks
and the compared filters correspond in both directions. -/
theorem MaskClause.ofCollection_of_targets {bindings : Bindings} {collection : FilterCollection}
    (valid : collection.validate = .ok ())
    (targets : ∀ field, (collection.filter field).isTrivial = false →
      ∃ binding, bindings.target field = .column binding) :
    ∃ masks, ofCollection bindings collection = .ok masks ∧
      (∀ mask ∈ masks, ∃ field binding, bindings.Compares collection field binding ∧
        mask.Reads collection field binding) ∧
      ∀ field binding, bindings.Compares collection field binding →
        ∃ mask ∈ masks, mask.Reads collection field binding := by
  have inactive (field : Field) (trivial : (collection.filter field).isTrivial = true) :
      Mask.ofFilter bindings field (collection.filter field) = .ok none := by
    rw [Mask.ofFilter.eq_def, if_pos trivial]
  have active (field : Field) (restricts : (collection.filter field).isTrivial = false) :
      ∃ binding mask, bindings.target field = .column binding ∧
        Mask.ofFilter bindings field (collection.filter field) = .ok (some mask) ∧
          mask.Reads collection field binding := by
    obtain ⟨binding, resolved⟩ := targets field restricts
    obtain ⟨mask, built, reads⟩ := Mask.ofFilter_of_target restricts
      (forM_eq_ok_iff.mp valid field field.mem_all) resolved
    exact ⟨binding, mask, resolved, built, reads⟩
  have built : ∃ options, Field.all.mapM (fun field =>
      Mask.ofFilter bindings field (collection.filter field)) = .ok options := by
    apply exists_mapM_eq_ok
    intro field _
    cases restricts : (collection.filter field).isTrivial with
    | true => exact ⟨none, inactive field restricts⟩
    | false =>
      obtain ⟨_, mask, _, own, _⟩ := active field restricts
      exact ⟨some mask, own⟩
  obtain ⟨options, made⟩ := built
  have steps := mapM_eq_ok_iff.mp made
  refine ⟨options.filterMap id, by rw [ofCollection, valid, made]; rfl, ?_, ?_⟩
  · intro mask member
    obtain ⟨option, inside, rfl⟩ := List.mem_filterMap.mp member
    obtain ⟨field, _, own⟩ := exists_source_of_mem steps inside
    cases restricts : (collection.filter field).isTrivial with
    | true => cases (inactive field restricts).symm.trans own
    | false =>
      obtain ⟨binding, other, resolved, found, reads⟩ := active field restricts
      cases found.symm.trans own
      exact ⟨field, binding, ⟨restricts, resolved⟩, reads⟩
  · rintro field binding ⟨restricts, target⟩
    obtain ⟨other, mask, resolved, found, reads⟩ := active field restricts
    cases resolved.symm.trans target
    obtain ⟨option, inside, own⟩ := exists_value_of_mem steps field.mem_all
    cases found.symm.trans own
    exact ⟨mask, List.mem_filterMap.mpr ⟨some mask, inside, rfl⟩, reads⟩

/-- Whenever a collection has conditions, it has masks, one for each filter that
restricts something. -/
theorem MaskClause.ofCollection_of_conditions {bindings : Bindings}
    {collection : FilterCollection} {conditions : List Condition}
    (compiled : Condition.ofCollection bindings collection = .ok conditions) :
    ∃ masks, ofCollection bindings collection = .ok masks ∧
      (∀ mask ∈ masks, ∃ field binding, bindings.Compares collection field binding ∧
        mask.Reads collection field binding) ∧
      ∀ field binding, bindings.Compares collection field binding →
        ∃ mask ∈ masks, mask.Reads collection field binding := by
  obtain ⟨valid, every, _⟩ := Condition.ofCollection_eq_ok compiled
  apply ofCollection_of_targets valid
  intro field restricts
  obtain ⟨made, own⟩ := every field
  obtain ⟨binding, _, resolved, _⟩ := Condition.ofField_eq_ok restricts own
  exact ⟨binding, resolved⟩

/-- A column of a frame has a position in it. -/
theorem Frame.exists_columnIndex? {frame : Frame} {name : String} (present : name ∈ frame.columns) :
    ∃ index, frame.columnIndex? name = some index := by
  apply Option.isSome_iff_exists.mp
  rw [columnIndex?, List.findIdx?_isSome, List.any_eq_true]
  exact ⟨name, present, by simp⟩

/-- A row of a frame has a cell under each of its columns. -/
theorem Frame.exists_cell? {frame : Frame} {row : Row} {name : String} (member : row ∈ frame.rows)
    (present : name ∈ frame.columns) : ∃ cell, frame.cell? row name = some cell := by
  obtain ⟨index, located⟩ := exists_columnIndex? present
  have inside : index < row.length := by
    rw [frame.rectangular row member]
    exact (List.findIdx?_eq_some_iff_getElem.mp located).1
  exact ⟨row[index], by simp [cell?, located, inside]⟩

/-- Masks whose columns are there are located, and a row passes them when each of
them accepts the cell under its column. -/
theorem MaskClause.locate_eq_ok {masks : MaskClause} {frame : Frame}
    (present : ∀ mask ∈ masks, mask.column ∈ frame.columns) :
    ∃ located, masks.locate frame = .ok located ∧ ∀ row, holds located row = true ↔
      ∀ mask ∈ masks, ∃ cell, frame.cell? row mask.column = some cell ∧ mask.accepts cell = true := by
  induction masks with
  | nil => exact ⟨[], rfl, fun row => by simp [holds]⟩
  | cons mask rest inductionHypothesis =>
    obtain ⟨own, others⟩ := List.forall_mem_cons.mp present
    obtain ⟨located, later, holdsRest⟩ := inductionHypothesis others
    obtain ⟨index, column⟩ := Frame.exists_columnIndex? own
    refine ⟨(index, mask) :: located, ?_, ?_⟩
    · rw [locate] at later ⊢
      rw [List.mapM_cons, later, column]
      rfl
    · intro row
      rw [List.forall_mem_cons, ← holdsRest row]
      simp only [holds, List.all_cons, Bool.and_eq_true, Frame.cell?, column, Option.bind_some]
      refine and_congr ?_ Iff.rfl
      cases row[index]? <;> simp

/-- The clause of conditions is true of a row exactly when every filter that is compared
with a column accepts the cell there and does not meet it as its bound.

Proof: a clause is true when all of its conditions are, and conditions correspond to the
filters that are compared with a column. About a native cell the test of a condition and the
filter agree, but for the bound, so both quantifiers say the same. -/
theorem Clause.truth?_of_conditions {bindings : Bindings} {collection : FilterCollection}
    {conditions : List Condition}
    (compiled : Condition.ofCollection bindings collection = .ok conditions)
    (suited : bindings.Suit collection) {frame : Frame} {row : Row}
    (present : ∀ field binding, bindings.Compares collection field binding →
      ∃ cell, frame.cell? row binding.column = some cell)
    (native : frame.IsNativeRow bindings collection row) (dialect : Dialect) :
    ∃ truth, (whereClause dialect conditions).truth? dialect (frame.cell? row) = some truth ∧
      (truth = .yes ↔ ∀ field binding cell, bindings.Compares collection field binding →
        frame.cell? row binding.column = some cell →
          (Mask.ofReading binding.column (collection.filter field)).accepts cell = true ∧
            ¬ (collection.filter field).TouchesBound cell) := by
  have filled := Condition.isFilled_of_ofCollection compiled
  have found : ∀ condition ∈ conditions, frame.cell? row condition.binding.column =
      some ((frame.cell? row condition.binding.column).getD .null) := by
    intro condition member
    obtain ⟨field, compares, _⟩ := (Condition.mem_ofCollection_iff compiled condition).mp member
    obtain ⟨cell, known⟩ := present field condition.binding compares
    rw [known]
    rfl
  obtain ⟨truth, read, yes⟩ := truth?_whereClause dialect filled found
  refine ⟨truth, read, yes.trans ⟨?_, ?_⟩⟩
  · intro all field binding cell compares known
    obtain ⟨condition, member, rfl, made⟩ := Condition.exists_of_compares compiled compares
    obtain ⟨type, sets⟩ := suited field condition.binding compares
    have own := all condition member
    rw [known] at own
    exact (Filter.truthAt_iff type sets compares.1 made (native field _ cell compares known)).mp own
  · intro all condition member
    obtain ⟨field, compares, made⟩ := (Condition.mem_ofCollection_iff compiled condition).mp member
    obtain ⟨type, sets⟩ := suited field condition.binding compares
    obtain ⟨cell, known⟩ := present field condition.binding compares
    rw [known]
    exact (Filter.truthAt_iff type sets compares.1 made (native field _ cell compares known)).mpr
      (all field condition.binding cell compares known)

/-- Masks hold for a row exactly when every filter that is compared with a column accepts
the cell there. Every mask reads the column of such a filter, and every such filter is read
by a mask, so the two conditions range over the same pairs of a filter and a cell. -/
theorem MaskClause.forall_accepts_iff {bindings : Bindings} {collection : FilterCollection}
    {masks : MaskClause}
    (reads : ∀ mask ∈ masks, ∃ field binding, bindings.Compares collection field binding ∧
      mask.Reads collection field binding)
    (every : ∀ field binding, bindings.Compares collection field binding →
      ∃ mask ∈ masks, mask.Reads collection field binding)
    {frame : Frame} {row : Row}
    (present : ∀ field binding, bindings.Compares collection field binding →
      ∃ cell, frame.cell? row binding.column = some cell) :
    (∀ mask ∈ masks, ∃ cell, frame.cell? row mask.column = some cell ∧ mask.accepts cell = true) ↔
      ∀ field binding cell, bindings.Compares collection field binding →
        frame.cell? row binding.column = some cell →
          (Mask.ofReading binding.column (collection.filter field)).accepts cell = true := by
  constructor
  · intro all field binding cell compares known
    obtain ⟨mask, member, column, accepts⟩ := every field binding compares
    obtain ⟨other, found, passed⟩ := all mask member
    rw [column, known] at found
    cases found
    rw [← accepts]
    exact passed
  · intro all mask member
    obtain ⟨field, binding, compares, column, accepts⟩ := reads mask member
    obtain ⟨cell, known⟩ := present field binding compares
    refine ⟨cell, column ▸ known, ?_⟩
    rw [accepts]
    exact all field binding cell compares known

/-- Masks whose columns are in a frame give one verdict for each row: to keep it when every
filter that is compared with a column accepts the cell there. Columns are located once for
the whole frame. Since each of them is there, no row can lack a cell, and the verdict about
a row asks its cells alone. -/
theorem MaskClause.evaluate_eq_ok {bindings : Bindings} {collection : FilterCollection}
    {masks : MaskClause}
    (reads : ∀ mask ∈ masks, ∃ field binding, bindings.Compares collection field binding ∧
      mask.Reads collection field binding)
    (every : ∀ field binding, bindings.Compares collection field binding →
      ∃ mask ∈ masks, mask.Reads collection field binding)
    {frame : Frame}
    (present : ∀ field binding, bindings.Compares collection field binding →
      binding.column ∈ frame.columns) :
    ∃ verdicts, masks.evaluate frame = .ok verdicts ∧
      List.Forall₂ (fun row verdict => row ∈ frame.rows ∧ (verdict = true ↔
        ∀ field binding cell, bindings.Compares collection field binding →
          frame.cell? row binding.column = some cell →
            (Mask.ofReading binding.column (collection.filter field)).accepts cell = true))
        frame.rows verdicts := by
  have columns : ∀ mask ∈ masks, mask.column ∈ frame.columns := by
    intro mask member
    obtain ⟨field, binding, compares, column, _⟩ := reads mask member
    exact column ▸ present field binding compares
  obtain ⟨located, found, holds⟩ := locate_eq_ok columns
  refine ⟨frame.rows.map (MaskClause.holds located), by rw [evaluate, found]; rfl, ?_⟩
  rw [List.forall₂_map_right_iff]
  apply List.forall₂_same.mpr
  intro row member
  constructor
  · exact member
  · rw [holds row]
    apply forall_accepts_iff reads every
    intro field binding compares
    exact Frame.exists_cell? member (present field binding compares)

/-- On columns of the types that fit the filtered fields, masks can be made of every
collection that a clause can be made of. They give one verdict for each row of a frame, and
the clause is true of a row exactly when the verdict is to keep it and no filter that keeps
what is on one side of a bound meets that bound in it.

Proof: from the conditions of the clause follow masks for the same filters, and both sides
are brought to one statement about the filters and the cells of a row. The mask asks that
every filter accepts its cell. The clause, read token by token in its dialect, asks for this
and that no filter meets its single bound, where its comparison is strict. -/
theorem clause_true_iff_mask_keeps {dialect : Dialect} {bindings : Bindings}
    {collection : FilterCollection} {clause : Clause} {frame : Frame}
    (compiled : Clause.ofCollection dialect bindings collection = .ok clause)
    (suited : bindings.Suit collection)
    (present : ∀ field binding, bindings.Compares collection field binding →
      binding.column ∈ frame.columns) :
    ∃ masks verdicts, MaskClause.ofCollection bindings collection = .ok masks ∧
      masks.evaluate frame = .ok verdicts ∧
      List.Forall₂ (fun row verdict => frame.IsNativeRow bindings collection row →
        ∃ truth, clause.truth? dialect (frame.cell? row) = some truth ∧
          (truth = .yes ↔ verdict = true ∧ ¬ frame.TouchesBound bindings collection row))
        frame.rows verdicts := by
  obtain ⟨conditions, made, rfl⟩ := Clause.ofCollection_eq_ok_iff.mp compiled
  obtain ⟨masks, built, reads, every⟩ := MaskClause.ofCollection_of_conditions made
  obtain ⟨verdicts, evaluated, keeps⟩ := MaskClause.evaluate_eq_ok reads every present
  refine ⟨masks, verdicts, built, evaluated, keeps.imp ?_⟩
  rintro row verdict ⟨member, keep⟩ native
  have cells (field : Field) (binding : Binding)
      (compares : bindings.Compares collection field binding) :
      ∃ cell, frame.cell? row binding.column = some cell :=
    Frame.exists_cell? member (present field binding compares)
  obtain ⟨truth, read, yes⟩ := Clause.truth?_of_conditions made suited cells native dialect
  refine ⟨truth, read, yes.trans ?_⟩
  rw [keep]
  constructor
  · intro both
    constructor
    · intro field binding cell compares known
      exact (both field binding cell compares known).1
    · rintro ⟨field, binding, cell, compares, known, touches⟩
      exact (both field binding cell compares known).2 touches
  · rintro ⟨accepts, apart⟩ field binding cell compares known
    constructor
    · exact accepts field binding cell compares known
    · intro touches
      exact apart ⟨field, binding, cell, compares, known, touches⟩

/-- Columns of texts, of integers and of versions. -/
def visitBindings : Bindings :=
  ((Bindings.empty.bind .session ⟨"visitor", .str⟩).bind .sessionIndex ⟨"step", .int⟩).bind
    .logVersion ⟨"version", .str⟩

/-- A set to remove, a single bound and a set of versions to keep. -/
def visitFilters : FilterCollection :=
  ((FilterCollection.empty.set .session
    (.set ⟨.exclude, (⟨["a"], trivial⟩ : Filter.ElementSet .text)⟩)).set .sessionIndex
    (.range ⟨.include, some 3, none⟩)).set .logVersion
      (.set ⟨.include, (⟨[Version.ofText "1.0"], trivial⟩ : Filter.ElementSet .version)⟩)

/-- Rows that are kept, removed, at the bound and null. -/
def visitFrame : Frame where
  columns := ["visitor", "step", "version"]
  rows := [[.text "b", .integer 4, .text "1.0"], [.text "a", .integer 4, .text "1.0"],
    [.text "b", .integer 3, .text "1.0"], [.null, .integer 4, .text "1.0"]]
  rectangular := by decide

/-- The columns fit the fields. -/
theorem visit_suit : visitBindings.Suit visitFilters := by
  rintro field binding ⟨active, target⟩
  cases field with
  | session =>
    cases target
    exact ⟨rfl, fun same => nomatch same⟩
  | sessionIndex =>
    cases target
    exact ⟨rfl, fun same => nomatch same⟩
  | logVersion =>
    cases target
    exact ⟨rfl, fun _ => ⟨_, rfl⟩⟩
  | _ => cases target

/-- The frame has the columns. -/
theorem visit_columns : ∀ field binding, visitBindings.Compares visitFilters field binding →
    binding.column ∈ visitFrame.columns := by
  rintro field binding ⟨active, target⟩
  cases field with
  | session | sessionIndex | logVersion =>
    cases target
    decide
  | _ => cases target

/-- The filters have a clause, which is true of the rows that the masks keep but for
the one at the bound. -/
theorem clause_true_iff_mask_keeps_visits :
    ∃ clause, Clause.ofCollection .mysql visitBindings visitFilters = .ok clause ∧
      ∃ masks verdicts, MaskClause.ofCollection visitBindings visitFilters = .ok masks ∧
        masks.evaluate visitFrame = .ok verdicts ∧
        List.Forall₂ (fun row verdict => visitFrame.IsNativeRow visitBindings visitFilters row →
          ∃ truth, clause.truth? .mysql (visitFrame.cell? row) = some truth ∧
            (truth = .yes ↔ verdict = true ∧
              ¬ visitFrame.TouchesBound visitBindings visitFilters row))
          visitFrame.rows verdicts :=
  ⟨_, rfl, @clause_true_iff_mask_keeps .mysql _ _ _ _ rfl visit_suit visit_columns⟩

example : (Clause.ofCollection .bigquery visitBindings visitFilters).toOption.map (fun clause =>
    visitFrame.rows.map fun row => clause.truth? .bigquery (visitFrame.cell? row)) =
      some [some .yes, some .no, some .no, some .unknown] := by
  decide +kernel

end EventSieve
