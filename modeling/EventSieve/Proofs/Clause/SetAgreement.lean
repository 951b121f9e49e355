import EventSieve.Proofs.Cell.Conversion
import EventSieve.Proofs.Cell.Equality
import EventSieve.Proofs.Clause.MaskAgreement
import EventSieve.Proofs.Filter.TextOrder

/-!
# Sets on columns of any type

A clause compares the cells of a column with the elements of a set in the type of the
column; a mask reads the cells into the domain of the elements and looks for them in
the set. The two go opposite ways between a domain and a type, so they agree where the
ways undo each other: an element is read from every value that is equal to the one it
is bound as, and a cell is equal to the bound value that is read as the cell is. The
first is about the spelling of an element and the second about the cell. Texts,
integers and instants on columns of their own type leave nothing to ask for.

A cell without a reading passes no mask, not even one that removes what matches.
-/

namespace EventSieve

open EventSieve.Filter (Domain Field Mode ElementSet)

/-- The values that a clause binds, in their order. -/
def Clause.values (clause : Clause) : List Cell :=
  valuesOf clause.parameters

namespace Filter.Domain

/-- Whether an element is read from the value that it is bound as, and from every value
that is equal to that one. -/
def ReadsBack (domain : Domain) (binding : Binding) (element : domain.Carrier) : Prop :=
  ∀ bound, Condition.bindValue binding element = .ok bound →
    domain.ofCell? bound = some element ∧
      ∀ cell : Cell, cell.equals bound = true → domain.ofCell? cell = some element

/-- Whether a cell is equal to every value that one of some elements is bound as, when it
is read as that element and so is the bound value. Other elements of the domain do not
matter. -/
def TellsApart (domain : Domain) (binding : Binding) (elements : List domain.Carrier)
    (cell : Cell) : Prop :=
  ∀ element ∈ elements, ∀ bound, Condition.bindValue binding element = .ok bound →
    domain.ofCell? cell = some element → domain.ofCell? bound = some element →
      cell.equals bound = true

/-- Whether the cells of a type that differ are read as different values. -/
def distinguishes : Domain → ColumnType → Bool
  | .text, .str | .text, .enum _ | .text, .int | .text, .bool | .text, .datetime => true
  | .integer, .int => true
  | .version, .int => true
  | .instant, .datetime => true
  | _, _ => false

/-- Whether the values of a domain are cells of a type as they stand. -/
def IsOwn (domain : Domain) (type : ColumnType) : Prop :=
  type = domain.columnType ∧ domain ≠ .version

end Filter.Domain

variable {domain : Domain} {binding : Binding}

/-- A value is bound as what it converts to, unless that is null. -/
theorem Condition.bindValue_eq_ok_iff {value : domain.Carrier} {bound : Cell} :
    bindValue binding value = .ok bound ↔
      (domain.toCell value).convert binding.type = .ok bound ∧ bound ≠ .null := by
  simp only [bindValue]
  cases (domain.toCell value).convert binding.type with
  | error source => simp
  | ok converted => cases converted <;> simp +contextual [Cell.isNull, eq_comm]

namespace Filter.Domain

/-- Only a value itself is equal to the cell that stands for it. -/
theorem equals_toCell_iff {cell : Cell} {value : domain.Carrier} :
    cell.equals (domain.toCell value) = true ↔ cell = domain.toCell value := by
  cases domain <;> cases cell <;> simp [toCell, Cell.equals]

/-- On a column of its own type every element is read back. -/
theorem readsBack_of_own (own : domain.IsOwn binding.type) (element : domain.Carrier) :
    domain.ReadsBack binding element := by
  intro bound made
  rw [Condition.bindValue_eq own.1 made]
  constructor
  · exact domain.ofCell?_toCell element
  · intro cell same
    rw [equals_toCell_iff.mp same]
    exact domain.ofCell?_toCell element

/-- On a column of its own type a domain distinguishes all cells. -/
theorem distinguishes_of_own {type : ColumnType} (own : domain.IsOwn type) :
    domain.distinguishes type = true := by
  obtain ⟨rfl, plain⟩ := own
  cases domain with
  | version => exact absurd rfl plain
  | text | integer | instant => rfl

/-- On a column of its own type every cell that is there is a value of a domain. -/
theorem exists_reading_of_own {type : ColumnType} (own : domain.IsOwn type) {cell : Cell}
    (kind : cell.IsOf type) (present : cell ≠ .null) : ∃ value, domain.ofCell? cell = some value := by
  obtain ⟨rfl, plain⟩ := own
  cases domain with
  | version => exact absurd rfl plain
  | text | integer | instant =>
    cases cell with
    | null => exact absurd rfl present
    | _ => first | exact ⟨_, rfl⟩ | exact kind.elim

/-- The versions of different integers differ. -/
theorem version_integerText_injective {left right : Int64}
    (same : Version.ofText (Cell.integer left).display = Version.ofText (Cell.integer right).display) :
    left = right := by
  have solid (value : Int64) : ∀ character ∈ (Cell.integer value).display.toList,
      Text.isBlank character = false := by
    intro character inside
    simp only [Cell.display, Number.integerText, String.toList_ofList] at inside
    split at inside
    · rcases List.mem_cons.mp inside with rfl | digit
      · decide
      · exact Text.isBlank_of_isDigit (Text.isDigit_of_mem_decimalChars digit)
    · exact Text.isBlank_of_isDigit (Text.isDigit_of_mem_decimalChars inside)
  have whole (value : Int64) :
      (Version.ofText (Cell.integer value).display).text = (Cell.integer value).display := by
    rw [Version.text_ofText, Text.trim, Text.trimChars_of_solid (solid value), String.ofList_toList]
  have texts := congrArg Version.text same
  rw [whole, whole] at texts
  exact display_injective .integer texts

/-- Where a domain distinguishes the cells of a type, a cell is equal to every bound value
that is read as the cell is. Both hold values of the kind of the column, and the same
element is read from both; for these pairs of a domain and a type different values are read
as different elements, so they are the same value. -/
theorem tellsApart_of_distinguishes (distinct : domain.distinguishes binding.type = true)
    {cell : Cell} (kind : cell.IsOf binding.type) (present : cell ≠ .null)
    (elements : List domain.Carrier) : domain.TellsApart binding elements cell := by
  intro element _ bound made read back
  obtain ⟨converted, known⟩ := Condition.bindValue_eq_ok_iff.mp made
  have same := read.trans back.symm
  have held := kind.holds present
  have boundHeld := (Cell.isOf_of_convert converted).holds known
  generalize binding.type = type at distinct held boundHeld
  cases domain with
  | text =>
    cases type with
    | str | enum variants =>
      obtain ⟨value, rfl⟩ := held
      obtain ⟨other, rfl⟩ := boundHeld
      exact decide_eq_true (Option.some.inj same)
    | int =>
      obtain ⟨value, rfl⟩ := held
      obtain ⟨other, rfl⟩ := boundHeld
      exact decide_eq_true (display_injective .integer (Option.some.inj same))
    | bool =>
      obtain ⟨value, rfl⟩ := held
      obtain ⟨other, rfl⟩ := boundHeld
      cases value <;> cases other <;> first | rfl | exact absurd same (by decide)
    | datetime =>
      obtain ⟨value, rfl⟩ := held
      obtain ⟨other, rfl⟩ := boundHeld
      exact decide_eq_true (display_injective .instant (Option.some.inj same))
    | float | timedelta | timezone | json => cases distinct
  | integer =>
    cases type with
    | int =>
      obtain ⟨value, rfl⟩ := held
      obtain ⟨other, rfl⟩ := boundHeld
      exact decide_eq_true (Option.some.inj same)
    | _ => cases distinct
  | version =>
    cases type with
    | int =>
      obtain ⟨value, rfl⟩ := held
      obtain ⟨other, rfl⟩ := boundHeld
      exact decide_eq_true (version_integerText_injective (Option.some.inj same))
    | _ => cases distinct
  | instant =>
    cases type with
    | datetime =>
      obtain ⟨value, rfl⟩ := held
      obtain ⟨other, rfl⟩ := boundHeld
      exact decide_eq_true (Option.some.inj same)
    | _ => cases distinct

end Filter.Domain

namespace Condition

/-- A condition of a set filter binds its elements one for one; the condition that
nothing passes, and none at all, have nothing to bind. -/
theorem values_ofSet {filter : SetFilter domain} {made : Option Condition}
    (compiled : ofSet binding filter = .ok made) :
    List.Forall₂ (fun element bound => bindValue binding element = .ok bound)
      filter.elements.toList (made.toList.flatMap fun condition => condition.comparison.values) := by
  obtain ⟨mode, elements⟩ := filter
  simp only [ofSet] at compiled
  split at compiled
  · rename_i empty
    have nothing : elements.toList = [] := List.isEmpty_iff.mp empty
    rw [nothing]
    rcases mode with _ | _
    · cases compiled
      exact .nil
    · cases compiled
      exact .nil
  · obtain ⟨values, bound, same⟩ := bind_eq_ok_iff.mp compiled
    cases same
    simpa [Comparison.values] using mapM_eq_ok_iff.mp bound

end Condition

/-- The clause of a set filter belongs to a field that admits sets, and it binds the
elements of the filter one for one. -/
theorem Clause.values_ofSetFilter {dialect : Dialect} {bindings : Bindings} {field : Field}
    {filter : SetFilter domain} {clause : Clause} (target : bindings.target field = .column binding)
    (compiled : ofSetFilter dialect bindings field filter = .ok clause) :
    Condition.requireShape field .set = .ok () ∧
      List.Forall₂ (fun element bound => Condition.bindValue binding element = .ok bound)
        filter.elements.toList clause.values := by
  obtain ⟨⟨⟩, admitted, later⟩ := bind_eq_ok_iff.mp compiled
  obtain ⟨other, resolved, rest⟩ := bind_eq_ok_iff.mp later
  cases (Bindings.resolve_eq_ok_iff.mp resolved).symm.trans target
  obtain ⟨made, condition, same⟩ := bind_eq_ok_iff.mp rest
  cases same
  constructor
  · exact admitted
  · rw [values, conjunction, valuesOf_renderAll]
    exact Condition.values_ofSet condition

/-- A value is in a set exactly when a cell that is read as it is equal to one of the bound
values, when elements are read back and the cell is told apart from others. The induction
goes along the elements and the values that they are bound as. For each pair the value is
the element exactly when the cell is equal to the bound value: one direction is that the
cell is told apart, and the other that the element is read back. -/
theorem Filter.ElementSet.contains_eq_any {elements : ElementSet domain} {values : List Cell}
    {cell : Cell} {value : domain.Carrier}
    (bound : List.Forall₂ (fun element bound => Condition.bindValue binding element = .ok bound)
      elements.toList values)
    (readsBack : ∀ element ∈ elements.toList, domain.ReadsBack binding element)
    (tellsApart : domain.TellsApart binding elements.toList cell)
    (read : domain.ofCell? cell = some value) :
    elements.contains value = values.any cell.equals := by
  rw [contains]
  generalize elements.toList = list at bound readsBack tellsApart
  induction bound with
  | nil => rfl
  | @cons element other _ _ made _ inductionHypothesis =>
    obtain ⟨own, others⟩ := List.forall_mem_cons.mp readsBack
    obtain ⟨apart, otherApart⟩ := List.forall_mem_cons.mp tellsApart
    obtain ⟨back, equal⟩ := own other made
    have same : domain.same element value = cell.equals other := by
      rw [Bool.eq_iff_iff, Domain.same_iff]
      constructor
      · rintro rfl
        exact apart other made read back
      · intro equals
        exact Option.some.inj ((equal cell equals).symm.trans read)
    rw [List.any_cons, List.any_cons, same, inductionHypothesis others otherApart]

/-- Wherever the clause of a set filter can be made, the mask can be made too. A cell
without a reading does not pass it. When all elements are read back from what they are bound
as, and the cell is told apart from the other values of its column, it passes exactly when
it has a reading and is equal to one of the values that the clause binds, or to none of them
when the filter removes what matches. On columns of their own type texts, integers and
instants need no more than a cell in the normal form.

Proof: a mask passes the cells that have a reading which the filter accepts, so the question
is whether that reading is an element exactly when the cell is equal to a bound value. This
goes element by element under the two conditions. For columns of the own type of a domain
both conditions hold of all elements and cells, and every cell that is there has a reading. -/
theorem set_mask_iff_bound_value {dialect : Dialect} {bindings : Bindings} {field : Field}
    {filter : SetFilter domain} {clause : Clause} {cell : Cell}
    (target : bindings.target field = .column binding)
    (compiled : Clause.ofSetFilter dialect bindings field filter = .ok clause)
    (present : cell ≠ .null) (normal : cell.convert binding.type = .ok cell) :
    ∃ mask, Mask.ofSetFilter bindings field filter = .ok mask ∧ mask.column = binding.column ∧
      (domain.ofCell? cell = none → mask.accepts cell = false) ∧
      ((∀ element ∈ filter.elements.toList, domain.ReadsBack binding element) →
        (domain.distinguishes binding.type = true ∨
            domain.TellsApart binding filter.elements.toList cell) →
          (mask.accepts cell = true ↔ (∃ value, domain.ofCell? cell = some value) ∧
            filter.mode.apply (clause.values.any cell.equals) = true)) ∧
      (domain.IsOwn binding.type →
        (mask.accepts cell = true ↔ filter.mode.apply (clause.values.any cell.equals) = true)) := by
  obtain ⟨admitted, bound⟩ := Clause.values_ofSetFilter target compiled
  obtain ⟨mask, made, column, reads⟩ := Mask.ofSetFilter_of_target filter admitted target
  have kind : cell.IsOf binding.type := Cell.isOf_of_convert normal
  have agrees (readsBack : ∀ element ∈ filter.elements.toList, domain.ReadsBack binding element)
      (apart : domain.distinguishes binding.type = true ∨
        domain.TellsApart binding filter.elements.toList cell) :
      mask.accepts cell = true ↔ (∃ value, domain.ofCell? cell = some value) ∧
        filter.mode.apply (clause.values.any cell.equals) = true := by
    have tellsApart : domain.TellsApart binding filter.elements.toList cell := by
      rcases apart with distinct | told
      · exact Domain.tellsApart_of_distinguishes distinct kind present _
      · exact told
    rw [reads, Mask.ofReading_accepts_iff]
    constructor
    · rintro ⟨value, read, accepted⟩
      refine ⟨⟨value, read⟩, ?_⟩
      rw [← ElementSet.contains_eq_any bound readsBack tellsApart read]
      exact accepted
    · rintro ⟨⟨value, read⟩, matched⟩
      refine ⟨value, read, ?_⟩
      rw [← ElementSet.contains_eq_any bound readsBack tellsApart read] at matched
      exact matched
  refine ⟨mask, made, column, ?_, agrees, ?_⟩
  · intro unread
    rw [reads, Bool.eq_false_iff]
    intro accepted
    obtain ⟨value, read, _⟩ := Mask.ofReading_accepts_iff.mp accepted
    cases unread.symm.trans read
  · intro own
    have whole := agrees (fun element _ => Domain.readsBack_of_own own element)
      (.inl (Domain.distinguishes_of_own own))
    rw [whole, and_iff_right (Domain.exists_reading_of_own own kind present)]

/-- A field of integers in a column of texts, and one of texts in an enumeration. -/
def looseBindings : Bindings :=
  (Bindings.empty.bind .eventCode ⟨"code", .str⟩).bind .appBranch ⟨"branch", .enum ["main", "dev"]⟩

/-- The set of one branch. -/
def branchFilter (branch : String) : SetFilter .text :=
  ⟨.include, (⟨[branch], trivial⟩ : ElementSet .text)⟩

/-- The set of one code, kept or removed. -/
def codeFilter (mode : Mode) (code : Int64) : SetFilter .integer :=
  ⟨mode, (⟨[code], trivial⟩ : ElementSet .integer)⟩

/-- A branch that is spelled as it was declared passes the mask when it is the branch of
the filter, and a code with a zero in front is told apart from another code that a filter
removes. -/
theorem set_mask_iff_bound_value_branch :
    (∃ clause mask,
      Clause.ofSetFilter .bigquery looseBindings .appBranch (branchFilter "main") = .ok clause ∧
      Mask.ofSetFilter looseBindings .appBranch (branchFilter "main") = .ok mask ∧
      (mask.accepts (.text "main") = true ↔
        (∃ value, Domain.text.ofCell? (.text "main") = some value) ∧
          Mode.include.apply (clause.values.any (Cell.text "main").equals) = true)) ∧
    ∃ clause mask,
      Clause.ofSetFilter .postgres looseBindings .eventCode (codeFilter .exclude 6) = .ok clause ∧
      Mask.ofSetFilter looseBindings .eventCode (codeFilter .exclude 6) = .ok mask ∧
      (mask.accepts (.text "05") = true ↔
        (∃ value, Domain.integer.ofCell? (.text "05") = some value) ∧
          Mode.exclude.apply (clause.values.any (Cell.text "05").equals) = true) := by
  constructor
  · obtain ⟨clause, compiled⟩ : ∃ clause,
        Clause.ofSetFilter .bigquery looseBindings .appBranch (branchFilter "main") = .ok clause :=
      ⟨_, rfl⟩
    obtain ⟨mask, made, _, _, agrees, _⟩ :=
      @set_mask_iff_bound_value .text ⟨"branch", .enum ["main", "dev"]⟩ _ _ _ _ _ (.text "main") rfl
        compiled (by simp) rfl
    refine ⟨clause, mask, compiled, made, agrees ?_ (.inl rfl)⟩
    have stored : @Condition.bindValue .text ⟨"branch", .enum ["main", "dev"]⟩ "main" =
        .ok (.text "main") := rfl
    intro element member bound found
    cases List.mem_singleton.mp member
    cases stored.symm.trans found
    constructor
    · rfl
    · intro cell same
      cases (@Domain.equals_toCell_iff .text _ _).mp same
      rfl
  · obtain ⟨clause, compiled⟩ : ∃ clause,
        Clause.ofSetFilter .postgres looseBindings .eventCode (codeFilter .exclude 6) = .ok clause :=
      ⟨_, rfl⟩
    obtain ⟨mask, made, _, _, agrees, _⟩ :=
      @set_mask_iff_bound_value .integer ⟨"code", .str⟩ _ _ _ _ _ (.text "05") rfl compiled
        (by simp) rfl
    have stored : @Condition.bindValue .integer ⟨"code", .str⟩ 6 = .ok (.text "6") := rfl
    have six : Domain.integer.ofCell? (.text "6") = some 6 := by decide +kernel
    have five : Domain.integer.ofCell? (.text "05") = some 5 := by decide +kernel
    refine ⟨clause, mask, compiled, made, agrees ?_ (.inr ?_)⟩
    · intro element member bound found
      cases List.mem_singleton.mp member
      cases stored.symm.trans found
      constructor
      · exact six
      · intro cell same
        cases (@Domain.equals_toCell_iff .text _ _).mp same
        exact six
    · intro element member bound _ read _
      cases List.mem_singleton.mp member
      exact absurd (five.symm.trans read) (by decide)

/-- Without these conditions a mask and the bound values can disagree about a cell in the
normal form of its column: a code that is no integer does not pass a mask that removes
another code; a code with a zero in front passes the mask of the code without one; and
a branch does not pass the mask of its name in capitals, which is bound as that branch. -/
theorem set_mask_misses_bound_values :
    (∃ clause mask,
      Clause.ofSetFilter .postgres looseBindings .eventCode (codeFilter .exclude 5) = .ok clause ∧
      Mask.ofSetFilter looseBindings .eventCode (codeFilter .exclude 5) = .ok mask ∧
      (Cell.text "menu").convert .str = .ok (.text "menu") ∧
      clause.values.any (Cell.text "menu").equals = false ∧
      mask.accepts (.text "menu") = false) ∧
    (∃ clause mask,
      Clause.ofSetFilter .postgres looseBindings .eventCode (codeFilter .include 5) = .ok clause ∧
      Mask.ofSetFilter looseBindings .eventCode (codeFilter .include 5) = .ok mask ∧
      (Cell.text "05").convert .str = .ok (.text "05") ∧
      clause.values.any (Cell.text "05").equals = false ∧
      mask.accepts (.text "05") = true) ∧
    ∃ clause mask,
      Clause.ofSetFilter .postgres looseBindings .appBranch (branchFilter "MAIN") = .ok clause ∧
      Mask.ofSetFilter looseBindings .appBranch (branchFilter "MAIN") = .ok mask ∧
      (Cell.text "main").convert (.enum ["main", "dev"]) = .ok (.text "main") ∧
      clause.values.any (Cell.text "main").equals = true ∧
      mask.accepts (.text "main") = false :=
  ⟨⟨_, _, rfl, rfl, rfl, rfl, by decide +kernel⟩, ⟨_, _, rfl, rfl, rfl, rfl, by decide +kernel⟩,
    ⟨_, _, rfl, rfl, rfl, rfl, by decide +kernel⟩⟩

end EventSieve
