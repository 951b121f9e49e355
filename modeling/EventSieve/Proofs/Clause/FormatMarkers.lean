import EventSieve.Proofs.Clause.FormatString
import EventSieve.Proofs.Clause.NullParameters
import EventSieve.Proofs.Clause.Relabelling

/-!
# Markers of clauses

A clause with markers is made of quoted column names, of markers, and of characters that are
neither quote characters nor percent signs. Who reads the clause as such finds a marker for
each value that it binds, wherever the names have percent signs: names between quote
characters are passed over.

A driver that takes the text for a format string does not know of quote characters. It finds
the same markers at the same places exactly when the percent signs of every column that the
clause names come in pairs.
-/

namespace EventSieve.Clause

open EventSieve.Filter (Domain Field Mode)

/-- The places of the references of a text that stands behind so many characters. Names
between quote characters are passed over, whatever stands inside them. -/
def referencePlaces (dialect : Dialect) (place : Nat) (text : List Char) : List Nat :=
  match text with
  | [] => []
  | first :: rest =>
    match _read : readToken? dialect first rest with
    | some (.reference _, remaining) =>
      place :: referencePlaces dialect (place + 1 + (rest.length - remaining.length)) remaining
    | some (.name _, remaining) =>
      referencePlaces dialect (place + 1 + (rest.length - remaining.length)) remaining
    | _ => referencePlaces dialect (place + 1) rest
termination_by text.length
decreasing_by
  · have bound : remaining.length ≤ rest.length := length_readToken?_le _read
    simp only [List.length_cons]
    omega
  · have bound : remaining.length ≤ rest.length := length_readToken?_le _read
    simp only [List.length_cons]
    omega
  · simp

section

variable (place : Nat)

/-- Characters that start neither a quoted name nor a reference are passed over. -/
theorem referencePlaces_append {dialect : Dialect} {front : List Char}
    (plain : ∀ character ∈ front, character ≠ dialect.quote ∧ character ≠ referenceSign dialect)
    (rest : List Char) :
    referencePlaces dialect place (front ++ rest) =
      referencePlaces dialect (place + front.length) rest := by
  induction front generalizing place with
  | nil => rfl
  | cons first more inductionHypothesis =>
    obtain ⟨own, later⟩ := List.forall_mem_cons.mp plain
    have count : place + 1 + more.length = place + (first :: more).length := by
      rw [List.length_cons]
      omega
    rw [List.cons_append, referencePlaces]
    split
    · rename_i read
      cases isMark_of_readToken? own read
    · rename_i read
      cases isMark_of_readToken? own read
    · rw [inductionHypothesis _ later, count]

/-- A quoted name is passed over. -/
theorem referencePlaces_identifier (dialect : Dialect) (name : String) {rest : List Char}
    (apart : rest.head? ≠ some dialect.quote) :
    referencePlaces dialect place ((dialect.identifier name).toList ++ rest) =
      referencePlaces dialect (place + (dialect.identifier name).toList.length) rest := by
  obtain ⟨body, text, read⟩ := readToken?_identifier dialect name apart
  have count : place + 1 + ((body ++ rest).length - rest.length) =
      place + (dialect.quote :: body).length := by
    simp only [List.length_cons, List.length_append]
    omega
  rw [text, List.cons_append, referencePlaces]
  split
  · rename_i found
    cases found.symm.trans read
  · rename_i found
    cases found.symm.trans read
    rw [count]
  · rename_i none
    exact absurd read (none _ _)

/-- A marker is found where it stands. -/
theorem referencePlaces_marker (rest : List Char) :
    referencePlaces .mysql place ('%' :: 's' :: rest) =
      place :: referencePlaces .mysql (place + 2) rest := by
  have read : readToken? .mysql '%' ('s' :: rest) = some (.reference .marker, rest) := rfl
  have count : place + 1 + (('s' :: rest).length - rest.length) = place + 2 := by
    rw [List.length_cons]
    omega
  rw [referencePlaces]
  split
  · rename_i found
    cases found.symm.trans read
    rw [count]
  · rename_i found
    cases found.symm.trans read
  · rename_i none _
    exact absurd read (none _ _)

end

/-- Whether there are neither quote characters nor percent signs among characters. -/
def isClean (characters : List Char) : Bool :=
  characters.all fun character =>
    character ≠ Dialect.mysql.quote && character ≠ referenceSign .mysql

/-- Clean characters start neither a quoted name nor a reference. -/
theorem plain_of_isClean {characters : List Char} (clean : isClean characters = true) :
    ∀ character ∈ characters,
      character ≠ Dialect.mysql.quote ∧ character ≠ referenceSign .mysql := by
  simpa [isClean] using clean

/-- A part of a clause with markers: characters that are neither quote characters nor percent
signs, a column with the blank behind it, or a marker. -/
inductive Piece where
  | plain (characters : List Char) (clean : isClean characters = true)
  | column (name : String)
  | marker

namespace Piece

/-- The text of a piece. -/
def chars : Piece → List Char
  | .plain characters _ => characters
  | .column name => (Dialect.mysql.identifier name).toList ++ [' ']
  | .marker => ['%', 's']

/-- Whether a piece is a marker. -/
def isMarker : Piece → Bool
  | .marker => true
  | .plain _ _ | .column _ => false

/-- The place of a piece that is a marker, behind so many characters. -/
def places (place : Nat) : Piece → List Nat
  | .marker => [place]
  | .plain _ _ | .column _ => []

end Piece

/-- The text of pieces. -/
def spelled (pieces : List Piece) : List Char :=
  pieces.flatMap Piece.chars

/-- The places of the markers among pieces that stand behind so many characters. -/
def placesOf : Nat → List Piece → List Nat
  | _, [] => []
  | place, piece :: rest => piece.places place ++ placesOf (place + piece.chars.length) rest

section

variable (place : Nat)

/-- The reader of a clause finds the marker that a piece is. -/
theorem referencePlaces_piece (piece : Piece) (rest : List Char) :
    referencePlaces .mysql place (piece.chars ++ rest) =
      piece.places place ++ referencePlaces .mysql (place + piece.chars.length) rest := by
  cases piece with
  | plain characters clean => exact referencePlaces_append place (plain_of_isClean clean) rest
  | column name =>
    have apart : (' ' :: rest).head? ≠ some Dialect.mysql.quote := by
      rw [List.head?_cons]
      decide
    have blank := @referencePlaces_append (place + (Dialect.mysql.identifier name).toList.length)
      .mysql [' '] (plain_of_isClean (by decide)) rest
    rw [Piece.chars, List.append_assoc, List.singleton_append,
      referencePlaces_identifier place .mysql name apart, ← List.singleton_append, blank,
      List.length_append, Nat.add_assoc]
    rfl
  | marker => exact referencePlaces_marker place rest

/-- The reader of a clause finds the markers among its pieces. -/
theorem referencePlaces_spelled (pieces : List Piece) :
    referencePlaces .mysql place (spelled pieces) = placesOf place pieces := by
  induction pieces generalizing place with
  | nil => rw [spelled, List.flatMap_nil, referencePlaces, placesOf]
  | cons piece rest inductionHypothesis =>
    have later := inductionHypothesis (place + piece.chars.length)
    rw [spelled, List.flatMap_cons, referencePlaces_piece]
    exact congrArg _ later

/-- The markers that a driver finds in a piece behind so many characters. -/
def Piece.formatPlaces? : Piece → Option (List Nat)
  | .plain _ _ => some []
  | .column name => markerPlaces? (place + 1) (doubled Dialect.mysql.quote name.toList)
  | .marker => some [place]

/-- A driver finds the markers of a piece, and then those behind it. -/
theorem markerPlaces?_piece (piece : Piece) (rest : List Char) :
    markerPlaces? place (piece.chars ++ rest) =
      (piece.formatPlaces? place).bind fun own =>
        (markerPlaces? (place + piece.chars.length) rest).map (own ++ ·) := by
  have nothing (found : Option (List Nat)) : found.map ([] ++ ·) = found := by
    simp
  cases piece with
  | plain characters clean =>
    rw [Piece.formatPlaces?, Option.bind_some, nothing]
    exact markerPlaces?_plain place (fun character member => (plain_of_isClean clean character member).2)
      rest
  | column name =>
    have blank (start : Nat) : markerPlaces? start (' ' :: rest) = markerPlaces? (start + 1) rest :=
      markerPlaces?_cons start (by decide) rest
    rw [Piece.chars, Piece.formatPlaces?, List.append_assoc, List.singleton_append,
      markerPlaces?_identifier, blank, List.length_append, List.length_singleton, Nat.add_assoc]
  | marker => rfl

/-- A driver finds just the marker that a piece is when the percent signs of a column come in
pairs. -/
theorem Piece.formatPlaces?_eq_some_iff (piece : Piece) :
    piece.formatPlaces? place = some (piece.places place) ↔
      ∀ name, piece = .column name → PercentsPaired name := by
  cases piece with
  | plain characters clean => simp [formatPlaces?, places]
  | column name =>
    have paired := percentsPaired_iff (place + 1) name
    simpa [formatPlaces?, places] using paired.symm
  | marker => simp [formatPlaces?, places]

/-- There are as many places as markers among pieces. -/
theorem length_placesOf (pieces : List Piece) :
    (placesOf place pieces).length = pieces.countP Piece.isMarker := by
  have own (piece : Piece) (start : Nat) :
      (piece.places start).length = if piece.isMarker then 1 else 0 := by
    cases piece <;> rfl
  induction pieces generalizing place with
  | nil => rfl
  | cons piece rest inductionHypothesis =>
    rw [placesOf, List.length_append, inductionHypothesis, own, List.countP_cons, Nat.add_comm]

/-- A driver finds the markers among pieces when the percent signs of their columns come in
pairs. -/
theorem markerPlaces?_spelled {pieces : List Piece}
    (paired : ∀ name, .column name ∈ pieces → PercentsPaired name) :
    markerPlaces? place (spelled pieces) = some (placesOf place pieces) := by
  induction pieces generalizing place with
  | nil => rfl
  | cons piece rest inductionHypothesis =>
    have own := (piece.formatPlaces?_eq_some_iff place).mpr fun name same =>
      paired name (same ▸ List.mem_cons_self)
    have later := inductionHypothesis (place + piece.chars.length) fun name member =>
      paired name (List.mem_cons_of_mem piece member)
    rw [spelled] at later
    rw [spelled, List.flatMap_cons, markerPlaces?_piece, own, Option.bind_some, later]
    rfl

/-- A driver finds no fewer markers in a piece than it is, and no more only when the percent
signs of a column come in pairs. -/
theorem Piece.paired_of_formatPlaces? {piece : Piece} {own : List Nat}
    (read : piece.formatPlaces? place = some own) :
    (if piece.isMarker then 1 else 0) ≤ own.length ∧
      (own.length = (if piece.isMarker then 1 else 0) →
        ∀ name, piece = .column name → PercentsPaired name) := by
  cases piece with
  | plain characters clean | marker =>
    cases read
    exact ⟨Nat.le_refl _, by rintro _ _ ⟨⟩⟩
  | column column =>
    refine ⟨Nat.zero_le _, ?_⟩
    rintro none name ⟨⟩
    have empty : own = [] := List.eq_nil_of_length_eq_zero none
    exact (percentsPaired_iff _ _).mpr (empty ▸ read)

/-- A driver finds no fewer markers than there are among pieces, and no more only when the
percent signs of their columns come in pairs. -/
theorem paired_of_markerPlaces? {pieces : List Piece} {found : List Nat}
    (read : markerPlaces? place (spelled pieces) = some found) :
    pieces.countP Piece.isMarker ≤ found.length ∧
      (found.length = pieces.countP Piece.isMarker →
        ∀ name, .column name ∈ pieces → PercentsPaired name) := by
  -- Counting is enough: the markers of the pieces are found anyway, so when there are no more,
  -- none is left for the names.
  induction pieces generalizing place found with
  | nil => exact ⟨Nat.zero_le _, by simp⟩
  | cons piece rest inductionHypothesis =>
    rw [spelled, List.flatMap_cons, markerPlaces?_piece] at read
    obtain ⟨own, mine, others⟩ := Option.bind_eq_some_iff.mp read
    obtain ⟨behind, later, rfl⟩ := Option.map_eq_some_iff.mp others
    obtain ⟨ownEnough, ownPaired⟩ := Piece.paired_of_formatPlaces? place mine
    obtain ⟨enough, paired⟩ := inductionHypothesis _ later
    rw [List.countP_cons, List.length_append]
    refine ⟨by omega, ?_⟩
    intro same name member
    rcases List.mem_cons.mp member with equal | further
    · exact ownPaired (by omega) name equal.symm
    · exact paired (by omega) name further

end

/-- The pieces between the parentheses of a row. -/
def rowPieces : Nat → List Piece
  | 0 => []
  | 1 => [.marker]
  | more + 2 =>
    .marker :: .plain rowSeparator rfl :: rowPieces (more + 1)

/-- The word that turns a comparison around is clean. -/
theorem isClean_negation (mode : Mode) : isClean (negation mode).toList = true := by
  cases mode <;> rfl

/-- The sign of a comparison with a minimum is clean. -/
theorem isClean_minimumSign (mode : Mode) : isClean (minimumSign mode).toList = true := by
  cases mode <;> rfl

/-- The sign of a comparison with a maximum is clean. -/
theorem isClean_maximumSign (mode : Mode) : isClean (maximumSign mode).toList = true := by
  cases mode <;> rfl

/-- The pieces of a condition. -/
def piecesOf (condition : Condition) : List Piece :=
  let column := Piece.column condition.binding.column
  match condition.comparison with
  | .never => [.plain "1=0".toList rfl]
  | .membership mode values =>
    [column, .plain (negation mode).toList (isClean_negation mode), .plain " IN (".toList rfl] ++
      rowPieces values.length ++ [.plain [')'] rfl]
  | .between mode _ _ =>
    [column, .plain (negation mode).toList (isClean_negation mode),
      .plain " BETWEEN ".toList rfl, .marker, .plain " AND ".toList rfl, .marker]
  | .minimum mode _ =>
    [column, .plain (minimumSign mode).toList (isClean_minimumSign mode), .plain [' '] rfl, .marker]
  | .maximum mode _ =>
    [column, .plain (maximumSign mode).toList (isClean_maximumSign mode), .plain [' '] rfl, .marker]

/-- The pieces of conditions behind a first one. -/
def furtherPieces : List Condition → List Piece
  | [] => []
  | condition :: rest =>
    .plain "\nAND ".toList rfl :: (piecesOf condition ++ furtherPieces rest)

/-- The pieces of the clause of conditions. -/
def clausePieces : List Condition → List Piece
  | [] => []
  | first :: rest =>
    .plain "WHERE ".toList rfl :: (piecesOf first ++ furtherPieces rest)

/-- A row is spelled with commas between its markers. -/
theorem spelled_rowPieces (size : Nat) :
    spelled (rowPieces size) = rowSeparator.intercalate (List.replicate size ['%', 's']) := by
  fun_induction rowPieces size with
  | case1 => rfl
  | case2 => rfl
  | case3 more inductionHypothesis =>
    have front (rest : List Piece) :
        spelled (.marker :: .plain rowSeparator rfl :: rest) =
          ['%', 's'] ++ rowSeparator ++ spelled rest := by
      simp [spelled, Piece.chars]
    rw [front, inductionHypothesis, List.replicate_succ, List.replicate_succ, List.replicate_succ,
      List.intercalate_cons_cons]

/-- A row has so many markers. -/
theorem countP_rowPieces (size : Nat) : (rowPieces size).countP Piece.isMarker = size := by
  fun_induction rowPieces size with
  | case1 => rfl
  | case2 => rfl
  | case3 more inductionHypothesis => simp [Piece.isMarker, List.countP_cons, inductionHypothesis]

/-- There is no column in a row. -/
theorem column_not_mem_rowPieces (name : String) (size : Nat) : .column name ∉ rowPieces size := by
  fun_induction rowPieces size with
  | case1 => simp
  | case2 => simp
  | case3 more inductionHypothesis => simpa using inductionHypothesis

/-- A condition is rendered as its pieces. -/
theorem toList_text_render_pieces (before : Nat) (used : List String) (condition : Condition) :
    (render .mysql before used condition).text.toList = spelled (piecesOf condition) := by
  obtain ⟨⟨column, type⟩, comparison⟩ := condition
  cases comparison with
  | never => simp [render, piecesOf, spelled, Piece.chars]
  | membership mode values =>
    have row := spelled_rowPieces values.length
    rw [spelled] at row
    simp [render, piecesOf, spelled, Piece.chars, Dialect.reference, Dialect.bindsArrays,
      Dialect.listOperand, String.toList_intercalate, row, rowSeparator]
  | between mode minimum maximum =>
    simp [render, piecesOf, spelled, Piece.chars, Dialect.reference]
  | minimum mode bound => simp [render, piecesOf, spelled, Piece.chars, Dialect.reference]
  | maximum mode bound => simp [render, piecesOf, spelled, Piece.chars, Dialect.reference]

/-- A condition has a marker for each of its values. -/
theorem countP_piecesOf (condition : Condition) :
    (piecesOf condition).countP Piece.isMarker = condition.comparison.values.length := by
  obtain ⟨binding, comparison⟩ := condition
  cases comparison with
  | membership mode values =>
    simp [piecesOf, Piece.isMarker, countP_rowPieces, Comparison.values]
  | never | between mode minimum maximum | minimum mode bound | maximum mode bound =>
    simp [piecesOf, Piece.isMarker, List.countP_cons, Comparison.values]

/-- A condition names its column when it binds values. -/
theorem column_mem_piecesOf_iff {condition : Condition} (filled : condition.comparison.IsFilled)
    (name : String) :
    .column name ∈ piecesOf condition ↔
      condition.comparison.values ≠ [] ∧ name = condition.binding.column := by
  obtain ⟨binding, comparison⟩ := condition
  cases comparison with
  | membership mode values =>
    have present : values ≠ [] := filled
    simp [piecesOf, column_not_mem_rowPieces, Comparison.values, present]
  | never | between mode minimum maximum | minimum mode bound | maximum mode bound =>
    simp [piecesOf, Comparison.values]

/-- Each condition binds one parameter for each of its values. -/
theorem length_parameters_render (before : Nat) (used : List String) (condition : Condition) :
    (render .mysql before used condition).parameters.length = condition.comparison.values.length := by
  obtain ⟨binding, comparison⟩ := condition
  cases comparison <;> simp [render, Dialect.bindsArrays, Comparison.values]

/-- The pieces of one text behind another. -/
theorem spelled_append (front back : List Piece) :
    spelled (front ++ back) = spelled front ++ spelled back :=
  List.flatMap_append

/-- The clause of conditions is written as its pieces. -/
theorem toList_text_whereClause (conditions : List Condition) :
    (whereClause .mysql conditions).text.toList = spelled (clausePieces conditions) := by
  have further (before : Nat) (used : List String) (rest : List Condition) :
      (((renderAll .mysql before used rest).map (·.text)).flatMap fun text =>
        "\nAND ".toList ++ text.toList) = spelled (furtherPieces rest) := by
    induction rest generalizing before used with
    | nil => rfl
    | cons condition more inductionHypothesis =>
      rw [renderAll, List.map_cons, List.flatMap_cons, inductionHypothesis,
        toList_text_render_pieces, furtherPieces, List.append_assoc, ← spelled_append]
      rfl
  cases conditions with
  | nil => rfl
  | cons first rest =>
    have text : (whereClause .mysql (first :: rest)).text = "WHERE " ++
        String.intercalate "\nAND " ((renderAll .mysql 0 [] (first :: rest)).map (·.text)) := rfl
    rw [text, String.toList_append, renderAll, List.map_cons, toList_intercalate_cons, further,
      toList_text_render_pieces, clausePieces, ← spelled_append]
    rfl

/-- There are as many parameters as markers. -/
theorem length_parameters_whereClause (conditions : List Condition) :
    (whereClause .mysql conditions).parameters.length =
      (clausePieces conditions).countP Piece.isMarker := by
  have further (before : Nat) (used : List String) (rest : List Condition) :
      ((renderAll .mysql before used rest).map (·.parameters)).flatten.length =
        (furtherPieces rest).countP Piece.isMarker := by
    induction rest generalizing before used with
    | nil => rfl
    | cons condition more inductionHypothesis =>
      rw [renderAll, List.map_cons, List.flatten_cons, List.length_append, inductionHypothesis,
        length_parameters_render, furtherPieces, List.countP_cons, List.countP_append,
        countP_piecesOf]
      rfl
  rw [parameters_whereClause, further]
  cases conditions with
  | nil => rfl
  | cons first rest => rfl

/-- The columns that a clause names are those of the conditions that bind values. -/
theorem column_mem_clausePieces_iff {conditions : List Condition}
    (filled : ∀ condition ∈ conditions, condition.comparison.IsFilled) (name : String) :
    .column name ∈ clausePieces conditions ↔
      ∃ condition ∈ conditions, condition.comparison.values ≠ [] ∧
        name = condition.binding.column := by
  have further (rest : List Condition) (own : ∀ condition ∈ rest, condition.comparison.IsFilled) :
      .column name ∈ furtherPieces rest ↔ ∃ condition ∈ rest, condition.comparison.values ≠ [] ∧
        name = condition.binding.column := by
    induction rest with
    | nil => simp [furtherPieces]
    | cons condition more inductionHypothesis =>
      obtain ⟨mine, later⟩ := List.forall_mem_cons.mp own
      rw [List.exists_mem_cons_iff, furtherPieces, List.mem_cons, List.mem_append,
        column_mem_piecesOf_iff mine, inductionHypothesis later]
      simp
  rw [← further conditions filled]
  cases conditions with
  | nil => rfl
  | cons first rest => simp [clausePieces, furtherPieces]

/-- Whether a driver that takes the text of a clause for a format string finds a marker for
each parameter, each in the place where the clause has it, and no other percent sign that
is not written twice. -/
def SurvivesFormat (clause : Clause) : Prop :=
  ∃ places, markerPlaces? 0 clause.text.toList = some places ∧
    places.length = clause.parameters.length ∧
    places = referencePlaces .mysql 0 clause.text.toList

/-- A driver finds just the markers of a clause of conditions exactly when the percent signs
of the columns that it names come in pairs. -/
theorem survivesFormat_whereClause_iff (conditions : List Condition) :
    SurvivesFormat (whereClause .mysql conditions) ↔
      ∀ name, .column name ∈ clausePieces conditions → PercentsPaired name := by
  rw [SurvivesFormat, toList_text_whereClause, length_parameters_whereClause,
    referencePlaces_spelled]
  constructor
  · rintro ⟨places, read, all, _⟩
    exact (paired_of_markerPlaces? 0 read).2 all
  · intro paired
    exact ⟨_, markerPlaces?_spelled 0 paired, length_placesOf 0 _, rfl⟩

/-- A condition binds values when its filter has any. -/
theorem values_eq_nil_iff {domain : Domain} {binding : Binding} {filter : Filter domain}
    {condition : Condition} (made : Condition.ofFilter binding filter = .ok (some condition)) :
    condition.comparison.values = [] ↔ filter.values = [] := by
  have count := (Condition.values_ofFilter made).length_eq
  rw [Option.toList_some, List.flatMap_singleton] at count
  rw [← List.length_eq_zero_iff, ← List.length_eq_zero_iff, count]

/-- A clause with markers survives a driver that takes it for a format string exactly when
the percent signs come in pairs in the name of every column with which a filter compares
values.

Proof: the text of a clause is a row of pieces, some of which are markers and some names of
columns, and a driver that reads it finds one marker for each of its own and possibly others
within names. Both directions rest on counting: no marker is lost, so there are no others
exactly when none is found within a name, and a name gives none exactly when its percent
signs come in pairs. -/
theorem survives_format_iff {bindings : Bindings} {collection : FilterCollection}
    {clause : Clause} (compiled : ofCollection .mysql bindings collection = .ok clause) :
    SurvivesFormat clause ↔
      ∀ field binding, bindings.Compares collection field binding →
        (collection.filter field).values ≠ [] → PercentsPaired binding.column := by
  obtain ⟨conditions, made, rfl⟩ := ofCollection_eq_ok_iff.mp compiled
  have named := column_mem_clausePieces_iff (Condition.isFilled_of_ofCollection made)
  rw [survivesFormat_whereClause_iff]
  constructor
  · intro paired field binding compares present
    obtain ⟨condition, member, rfl, own⟩ := Condition.exists_of_compares made compares
    exact paired _ ((named _).mpr ⟨condition, member, mt (values_eq_nil_iff own).mp present, rfl⟩)
  · intro paired name among
    obtain ⟨condition, member, present, rfl⟩ := (named name).mp among
    obtain ⟨field, compares, own⟩ := (Condition.mem_ofCollection_iff made condition).mp member
    exact paired field _ compares (mt (values_eq_nil_iff own).mpr present)

/-- Sessions stand in a column of texts. -/
def sessionColumn (column : String) : Bindings :=
  Bindings.empty.bind .session ⟨column, .str⟩

/-- A filter that keeps one session. -/
def onlySession : FilterCollection :=
  FilterCollection.empty.set .session (.set ⟨.include, ⟨["a"], trivial⟩⟩)

/-- The clause on a column whose percent signs come in pairs survives. -/
theorem survives_format_iff_pair :
    ∃ clause, ofCollection .mysql (sessionColumn "100%%sure") onlySession = .ok clause ∧
      SurvivesFormat clause := by
  refine ⟨_, rfl, (@survives_format_iff (sessionColumn "100%%sure") onlySession _ rfl).mpr ?_⟩
  rintro field binding ⟨_, target⟩ _
  cases field with
  | session =>
    cases target
    decide +kernel
  | _ => cases target

/-- A percent sign with an s behind it in the name of a column is a second marker beside that
of the only parameter. -/
theorem format_marker_in_column :
    ∃ clause, ofCollection .mysql (sessionColumn "100%sure") onlySession = .ok clause ∧
      clause.text = "WHERE `100%sure`  IN (%s)" ∧ clause.parameters.length = 1 ∧
      markerPlaces? 0 clause.text.toList = some [10, 22] ∧ ¬ SurvivesFormat clause := by
  let clause := whereClause .mysql [⟨⟨"100%sure", .str⟩, .membership .include [.text "a"]⟩]
  have text : clause.text = "WHERE `100%sure`  IN (%s)" := by decide +kernel
  have markers : markerPlaces? 0 clause.text.toList = some [10, 22] := by
    rw [text]
    decide +kernel
  refine ⟨clause, rfl, text, rfl, markers, ?_⟩
  rintro ⟨places, read, count, _⟩
  cases markers.symm.trans read
  cases count

end EventSieve.Clause
