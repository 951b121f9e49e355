import EventSieve.Proofs.Clause.FreshName
import EventSieve.Proofs.Clause.Predicate

/-!
# Rendered conditions are predicates

Every condition is rendered as one predicate, and the tokens of the text are the
tokens of that predicate. Which names the predicate refers to follows from the
names in use alone, so a name chosen for one fragment never stands in another.

A clause text is the word WHERE and the fragments with the word AND between them,
and its tokens are therefore those of the predicates.
-/

namespace EventSieve.Clause

open EventSieve.Filter (Mode)

/-- The predicate that a condition is rendered as. -/
def predicateOf (dialect : Dialect) (before : Nat) (used : List String) (condition : Condition) :
    Predicate :=
  let column := condition.binding.column
  let stem := parameterStem column
  match condition.comparison with
  | .never => .equal 1 0
  | .membership mode values =>
    let name := freshName used (stem ++ "_list")
    .among column (mode = .exclude)
      (if dialect.bindsArrays then .array (referenceOf dialect name (before + 1))
      else .row ((List.range values.length).map fun index =>
        referenceOf dialect name (before + index + 1)))
  | .between mode _ _ =>
    let first := freshName used (stem ++ "_min")
    let second := freshName (first :: used) (stem ++ "_max")
    .between column (mode = .exclude) (referenceOf dialect first (before + 1))
      (referenceOf dialect second (before + 2))
  | .minimum mode _ =>
    let bound := referenceOf dialect (freshName used (stem ++ "_min")) (before + 1)
    match mode with
    | .include => .greater column bound
    | .exclude => .less column bound
  | .maximum mode _ =>
    let bound := referenceOf dialect (freshName used (stem ++ "_max")) (before + 1)
    match mode with
    | .include => .less column bound
    | .exclude => .greater column bound

/-- The predicates that conditions are rendered as, one after the other. -/
def predicatesOf (dialect : Dialect) : Nat → List String → List Condition → List Predicate
  | _, _, [] => []
  | before, used, condition :: rest =>
    let rendered := render dialect before used condition
    predicateOf dialect before used condition ::
      predicatesOf dialect (before + rendered.parameters.length) (rendered.names ++ used) rest

/-- A text whose first character cannot stand in a name is apart from what is
before it. -/
theorem apart_cons {character : Char} (rest : List Char) (outside : isNameChar character = false) :
    Apart (character :: rest) := by
  rintro first ⟨⟩
  exact outside

/-- The name of a parameter that is made from a column can be read. -/
theorem isParameterName_ofColumn (used : List String) (column suffix : String)
    (all : ∀ character ∈ suffix.toList, isNameChar character) :
    IsParameterName (freshName used (parameterStem column ++ suffix)).toList := by
  apply isParameterName_freshName used
  rw [String.toList_append]
  exact (isParameterName_parameterStem column).append all

/-- Joined texts are the first one and then each other one behind the separator. -/
theorem toList_intercalate_cons (separator first : String) (rest : List String) :
    (String.intercalate separator (first :: rest)).toList =
      first.toList ++ rest.flatMap fun text => separator.toList ++ text.toList := by
  induction rest generalizing first with
  | nil => simp
  | cons next more inductionHypothesis =>
    rw [String.intercalate_cons_cons, String.toList_append, String.toList_append,
      inductionHypothesis, List.flatMap_cons, List.append_assoc, List.append_assoc]

/-- A blank between parts of a text is passed over. -/
theorem tokens?_space (dialect : Dialect) (rest : List Char) :
    tokens? dialect (' ' :: rest) = tokens? dialect rest :=
  tokens?_blank dialect rest (by decide)

/-- The name of a column and the blank behind it. -/
theorem tokens?_column (dialect : Dialect) (column : String) (rest : List Char) :
    tokens? dialect ((dialect.identifier column).toList ++ ' ' :: rest) =
      (tokens? dialect rest).map (.name column :: ·) := by
  rw [tokens?_identifier dialect column (by cases dialect <;> simp [Dialect.quote]), tokens?_space]

/-- The word that turns a comparison around and the blank behind it. -/
theorem tokens?_negation (dialect : Dialect) (mode : Mode) (rest : List Char) :
    tokens? dialect ((negation mode).toList ++ ' ' :: rest) =
      (tokens? dialect rest).map (negationTokens (mode = .exclude) ++ ·) := by
  match mode with
  | .include =>
    refine (tokens?_space dialect rest).trans ?_
    simp [negationTokens]
  | .exclude =>
    refine (tokens?_word dialect .notWord (apart_cons rest (by decide))).trans ?_
    rw [tokens?_space]
    rfl

/-- Parameters behind commas up to the end of a row. -/
theorem tokens?_rowTokens (dialect : Dialect) {name : String}
    (readable : IsParameterName name.toList) (positions : List Nat) (rest : List Char) :
    tokens? dialect ((positions.flatMap fun position =>
        ',' :: ' ' :: (dialect.reference name position).toList) ++ ')' :: rest) =
      (tokens? dialect rest).map (rowTokens (positions.map (referenceOf dialect name)) ++ ·) := by
  induction positions with
  | nil => exact tokens?_sign dialect rest (by decide)
  | cons position more inductionHypothesis =>
    have apart : Apart ((more.flatMap fun position =>
        ',' :: ' ' :: (dialect.reference name position).toList) ++ ')' :: rest) := by
      cases more with
      | nil => exact apart_cons rest (by decide)
      | cons next later => exact apart_cons _ (by decide)
    rw [List.flatMap_cons, List.append_assoc, List.cons_append, List.cons_append,
      tokens?_sign dialect _ (by decide), tokens?_space,
      tokens?_reference dialect position readable.ne_nil readable.all apart, inductionHypothesis]
    simp [rowTokens, Function.comp_def]

/-- A row of parameters is read as one reference for each value. Behind the first one each
comes with a comma and a blank, which keep it apart from the next. -/
theorem tokens?_listOperand (dialect : Dialect) {name : String}
    (readable : IsParameterName name.toList) (positions : List Nat) (rest : List Char) :
    tokens? dialect ((Dialect.listOperand (positions.map (dialect.reference name))).toList ++ rest) =
      (tokens? dialect rest).map
        ((Operand.row (positions.map (referenceOf dialect name))).tokens ++ ·) := by
  have text : (Dialect.listOperand (positions.map (dialect.reference name))).toList ++ rest =
      '(' :: ((String.intercalate ", " (positions.map (dialect.reference name))).toList ++
        ')' :: rest) := by
    simp [Dialect.listOperand]
  rw [text, tokens?_sign dialect _ (by decide)]
  cases positions with
  | nil =>
    refine (congrArg _ (tokens?_sign dialect rest (by decide))).trans ?_
    simp [Operand.tokens, Function.comp_def]
  | cons position more =>
    have apart : Apart ((more.flatMap fun position =>
        ',' :: ' ' :: (dialect.reference name position).toList) ++ ')' :: rest) := by
      cases more with
      | nil => exact apart_cons rest (by decide)
      | cons next later => exact apart_cons _ (by decide)
    have front := tokens?_reference dialect position readable.ne_nil readable.all apart
    have back := tokens?_rowTokens dialect readable more rest
    rw [List.map_cons, toList_intercalate_cons, List.flatMap_map, List.append_assoc]
    refine (congrArg _ (front.trans (congrArg _ back))).trans ?_
    simp [Operand.tokens, Function.comp_def]

/-- One array. -/
theorem tokens?_arrayOperand (dialect : Dialect) {name : String}
    (readable : IsParameterName name.toList) (position : Nat) (rest : List Char) :
    tokens? dialect ((Dialect.arrayOperand (dialect.reference name position)).toList ++ rest) =
      (tokens? dialect rest).map
        ((Operand.array (referenceOf dialect name position)).tokens ++ ·) := by
  have text : (Dialect.arrayOperand (dialect.reference name position)).toList ++ rest =
      Word.unnestWord.chars ++ '(' :: ((dialect.reference name position).toList ++ ')' :: rest) := by
    simp [Dialect.arrayOperand, Word.chars]
  rw [text, tokens?_word dialect .unnestWord (apart_cons _ (by decide)),
    tokens?_sign dialect _ (by decide),
    tokens?_reference dialect position readable.ne_nil readable.all (apart_cons rest (by decide)),
    tokens?_sign dialect rest (by decide)]
  simp [Operand.tokens, Function.comp_def]

/-- The comparison of a column with one bound. -/
theorem tokens?_oneBound (dialect : Dialect) (column : String) {name sign : String}
    {character : Char} (spelled : sign = String.ofList [character])
    (known : character ∈ ['(', ')', ',', '=', '<', '>']) (readable : IsParameterName name.toList)
    (position : Nat) {rest : List Char} (apart : Apart rest) :
    tokens? dialect ((dialect.identifier column ++ " " ++ sign ++ " " ++
        dialect.reference name position).toList ++ rest) =
      (tokens? dialect rest).map
        ([.name column, .sign character, .reference (referenceOf dialect name position)] ++ ·) := by
  have text : (dialect.identifier column ++ " " ++ sign ++ " " ++
      dialect.reference name position).toList ++ rest = (dialect.identifier column).toList ++
        ' ' :: character :: ' ' :: ((dialect.reference name position).toList ++ rest) := by
    simp [spelled]
  rw [text, tokens?_column, tokens?_sign dialect _ known, tokens?_space,
    tokens?_reference dialect position readable.ne_nil readable.all apart]
  simp [Function.comp_def]

/-- The comparison that no row passes. -/
theorem tokens?_never (dialect : Dialect) {rest : List Char} (apart : Apart rest) :
    tokens? dialect ("1=0".toList ++ rest) =
      (tokens? dialect rest).map ((Predicate.equal 1 0).tokens ++ ·) := by
  have text : "1=0".toList ++ rest = ['1'] ++ '=' :: (['0'] ++ rest) := by simp
  have one : tokens? dialect (['1'] ++ '=' :: (['0'] ++ rest)) =
      (tokens? dialect ('=' :: (['0'] ++ rest))).map (.number 1 :: ·) :=
    tokens?_run (by decide) (List.all_eq_true.mp rfl) (apart_cons _ (by decide)) (by decide)
  have zero : tokens? dialect (['0'] ++ rest) = (tokens? dialect rest).map (.number 0 :: ·) :=
    tokens?_run (by decide) (List.all_eq_true.mp rfl) apart (by decide)
  rw [text, one, tokens?_sign dialect _ (by decide), zero]
  simp [Predicate.tokens, Function.comp_def]

/-- The comparison of a column with the values of a set. -/
theorem tokens?_membership (dialect : Dialect) (column : String) (mode : Mode) {operand : String}
    {spelled : Operand} {rest : List Char}
    (read : tokens? dialect (operand.toList ++ rest) =
      (tokens? dialect rest).map (spelled.tokens ++ ·)) :
    tokens? dialect ((dialect.identifier column ++ " " ++ negation mode ++ " IN " ++
        operand).toList ++ rest) =
      (tokens? dialect rest).map ((Predicate.among column (mode = .exclude) spelled).tokens ++ ·) := by
  have text : (dialect.identifier column ++ " " ++ negation mode ++ " IN " ++
      operand).toList ++ rest = (dialect.identifier column).toList ++ ' ' :: ((negation mode).toList ++
        ' ' :: (Word.inWord.chars ++ ' ' :: (operand.toList ++ rest))) := by
    simp [Word.chars]
  rw [text, tokens?_column, tokens?_negation,
    tokens?_word dialect .inWord (apart_cons _ (by decide)), tokens?_space, read]
  simp [Predicate.tokens, Function.comp_def]

/-- The comparison of a column with two bounds is read as the tokens of such a predicate.
The text is cut into words, blanks and references in their order, and each of these has been
read on its own before. -/
theorem tokens?_between (dialect : Dialect) (column : String) (mode : Mode) {lower upper : String}
    (lowerReadable : IsParameterName lower.toList) (upperReadable : IsParameterName upper.toList)
    (lowerPosition upperPosition : Nat) {rest : List Char} (apart : Apart rest) :
    tokens? dialect ((dialect.identifier column ++ " " ++ negation mode ++ " BETWEEN " ++
        dialect.reference lower lowerPosition ++ " AND " ++
          dialect.reference upper upperPosition).toList ++ rest) =
      (tokens? dialect rest).map ((Predicate.between column (mode = .exclude)
        (referenceOf dialect lower lowerPosition)
          (referenceOf dialect upper upperPosition)).tokens ++ ·) := by
  have text : (dialect.identifier column ++ " " ++ negation mode ++ " BETWEEN " ++
      dialect.reference lower lowerPosition ++ " AND " ++
        dialect.reference upper upperPosition).toList ++ rest =
      (dialect.identifier column).toList ++ ' ' :: ((negation mode).toList ++
        ' ' :: (Word.betweenWord.chars ++ ' ' :: ((dialect.reference lower lowerPosition).toList ++
          ' ' :: (Word.andWord.chars ++
            ' ' :: ((dialect.reference upper upperPosition).toList ++ rest))))) := by
    simp [Word.chars]
  rw [text, tokens?_column, tokens?_negation,
    tokens?_word dialect .betweenWord (apart_cons _ (by decide)), tokens?_space,
    tokens?_reference dialect lowerPosition lowerReadable.ne_nil lowerReadable.all
      (apart_cons _ (by decide)),
    tokens?_space, tokens?_word dialect .andWord (apart_cons _ (by decide)), tokens?_space,
    tokens?_reference dialect upperPosition upperReadable.ne_nil upperReadable.all apart]
  simp [Predicate.tokens, Function.comp_def]

/-- A condition is rendered as the spelling of its predicate: the text is read as the tokens
of that, and then reading goes on. The names of its parameters can be read because they are
made from the stem of the column and a suffix. -/
theorem tokens?_render (dialect : Dialect) (before : Nat) (used : List String)
    (condition : Condition) {rest : List Char} (apart : Apart rest) :
    tokens? dialect ((render dialect before used condition).text.toList ++ rest) =
      (tokens? dialect rest).map ((predicateOf dialect before used condition).tokens ++ ·) := by
  obtain ⟨⟨column, type⟩, comparison⟩ := condition
  have listName := isParameterName_ofColumn used column "_list" (List.all_eq_true.mp rfl)
  have minimumName (names : List String) :=
    isParameterName_ofColumn names column "_min" (List.all_eq_true.mp rfl)
  have maximumName (names : List String) :=
    isParameterName_ofColumn names column "_max" (List.all_eq_true.mp rfl)
  cases comparison with
  | never => exact tokens?_never dialect apart
  | membership mode values =>
    simp only [render, predicateOf]
    split
    · exact tokens?_membership dialect column mode
        (tokens?_arrayOperand dialect listName (before + 1) rest)
    · have row := tokens?_listOperand dialect listName
        ((List.range values.length).map fun index => before + index + 1) rest
      rw [List.map_map, List.map_map] at row
      exact tokens?_membership dialect column mode row
  | between mode minimum maximum =>
    exact tokens?_between dialect column mode (minimumName used)
      (maximumName (freshName used (parameterStem column ++ "_min") :: used)) (before + 1)
      (before + 2) apart
  | minimum mode bound =>
    match mode with
    | .include =>
      exact tokens?_oneBound dialect column rfl (by decide) (minimumName used) (before + 1) apart
    | .exclude =>
      exact tokens?_oneBound dialect column rfl (by decide) (minimumName used) (before + 1) apart
  | maximum mode bound =>
    match mode with
    | .include =>
      exact tokens?_oneBound dialect column rfl (by decide) (maximumName used) (before + 1) apart
    | .exclude =>
      exact tokens?_oneBound dialect column rfl (by decide) (maximumName used) (before + 1) apart

/-- Fragments behind a first one are read with AND before each of them, and they begin with
a character that keeps them apart from what stands in front. Places and names in use are
passed on from one fragment to the next, as rendering does. -/
theorem tokens?_furtherFragments (dialect : Dialect) (before : Nat) (used : List String)
    (conditions : List Condition) :
    Apart ((renderAll dialect before used conditions).flatMap fun rendered =>
        "\nAND ".toList ++ rendered.text.toList) ∧
      tokens? dialect ((renderAll dialect before used conditions).flatMap fun rendered =>
        "\nAND ".toList ++ rendered.text.toList) =
        some (furtherTokens (predicatesOf dialect before used conditions)) := by
  induction conditions generalizing before used with
  | nil => exact ⟨by rintro character ⟨⟩, tokens?_nil dialect⟩
  | cons condition rest inductionHypothesis =>
    obtain ⟨apart, later⟩ := inductionHypothesis
      (before + (render dialect before used condition).parameters.length)
      ((render dialect before used condition).names ++ used)
    have text (more : List Char) : "\nAND ".toList ++
        (render dialect before used condition).text.toList ++ more =
        '\n' :: (Word.andWord.chars ++ ' ' ::
          ((render dialect before used condition).text.toList ++ more)) := by
      simp [Word.chars]
    simp only [renderAll, List.flatMap_cons, predicatesOf]
    rw [text]
    refine ⟨apart_cons _ (by decide), ?_⟩
    rw [tokens?_blank dialect _ (by decide),
      tokens?_word dialect .andWord (apart_cons _ (by decide)), tokens?_space,
      tokens?_render dialect before used condition apart, later]
    simp [furtherTokens]

/-- The fragments of a conjunction. -/
theorem tokens?_conjunction (dialect : Dialect) (condition : Condition) (rest : List Condition) :
    tokens? dialect (conjunction dialect (condition :: rest)).text.toList =
      some ((predicateOf dialect 0 [] condition).tokens ++
        furtherTokens (predicatesOf dialect (render dialect 0 [] condition).parameters.length
          (render dialect 0 [] condition).names rest)) := by
  obtain ⟨apart, later⟩ := tokens?_furtherFragments dialect
    (render dialect 0 [] condition).parameters.length (render dialect 0 [] condition).names rest
  simp only [conjunction, renderAll, List.map_cons, Nat.zero_add, List.append_nil]
  rw [toList_intercalate_cons, List.flatMap_map,
    tokens?_render dialect 0 [] condition apart, later]
  rfl

/-- The text of a clause is the spelling of its predicates. -/
theorem tokens?_whereClause (dialect : Dialect) (conditions : List Condition) :
    tokens? dialect (whereClause dialect conditions).text.toList =
      some (statementTokens (predicatesOf dialect 0 [] conditions)) := by
  cases conditions with
  | nil => exact tokens?_nil dialect
  | cons condition rest =>
    have text : (whereClause dialect (condition :: rest)).text.toList = Word.whereWord.chars ++ ' ' ::
        (conjunction dialect (condition :: rest)).text.toList := by
      simp [whereClause, Word.chars]
    rw [text, tokens?_word dialect .whereWord (apart_cons _ (by decide)), tokens?_space,
      tokens?_conjunction]
    simp [predicatesOf, statementTokens]

end EventSieve.Clause
