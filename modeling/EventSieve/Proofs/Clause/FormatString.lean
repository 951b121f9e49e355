import EventSieve.Clause.Dialect

/-!
# Format strings

A driver that substitutes parameters by format takes the whole text of a clause for a format
string. A percent sign with an s behind it is a marker and makes room for the next parameter,
wherever it stands; two percent signs are one percent sign; any other percent sign has no
meaning.

No other character than a percent sign or an s goes on with a percent sign, so the markers
of a text are those in front of such a character and those behind it. A quote character is
one of these, and writing it twice changes no marker: a quoted name has the markers of the
name.
-/

namespace EventSieve.Clause

/-- The places of the markers of a format string that stands behind so many characters. A
text with a percent sign without a meaning has none. -/
def markerPlaces? : Nat → List Char → Option (List Nat)
  | _, [] => some []
  | place, '%' :: '%' :: rest => markerPlaces? (place + 2) rest
  | place, '%' :: 's' :: rest => (markerPlaces? (place + 2) rest).map (place :: ·)
  | _, '%' :: _ => none
  | place, _ :: rest => markerPlaces? (place + 1) rest

/-- Whether every percent sign of a name is written twice, so that there is no marker in it. -/
def PercentsPaired (name : String) : Prop :=
  markerPlaces? 0 name.toList = some []
deriving Decidable

/-- A character that goes on with no percent sign. -/
def EndsConversion (character : Char) : Prop :=
  character ≠ '%' ∧ character ≠ 's'

section

variable {character : Char} (place : Nat)

/-- Another character than a percent sign is passed over. -/
theorem markerPlaces?_cons (plain : character ≠ '%') (rest : List Char) :
    markerPlaces? place (character :: rest) = markerPlaces? (place + 1) rest := by
  rw [markerPlaces?]
  all_goals
    intros
    contradiction

/-- Characters without a percent sign are passed over. -/
theorem markerPlaces?_plain {front : List Char} (plain : ∀ character ∈ front, character ≠ '%')
    (rest : List Char) :
    markerPlaces? place (front ++ rest) = markerPlaces? (place + front.length) rest := by
  induction front generalizing place with
  | nil => rfl
  | cons first more inductionHypothesis =>
    obtain ⟨own, later⟩ := List.forall_mem_cons.mp plain
    rw [List.cons_append, markerPlaces?_cons place own, inductionHypothesis _ later,
      List.length_cons, Nat.add_assoc, Nat.add_comm 1]

/-- A percent sign that nothing goes on with has no meaning. -/
theorem markerPlaces?_stray {rest : List Char}
    (ended : ∀ character ∈ rest.head?, EndsConversion character) :
    markerPlaces? place ('%' :: rest) = none := by
  rw [markerPlaces?]
  · rintro _ rfl
    exact (ended '%' rfl).1 rfl
  · rintro _ rfl
    exact (ended 's' rfl).2 rfl

/-- A text that starts with neither a percent sign nor an s goes on with no percent sign. -/
theorem endsConversion_of_head? {rest : List Char} (noPercent : ∀ more, rest = '%' :: more → False)
    (noMarker : ∀ more, rest = 's' :: more → False) :
    ∀ character ∈ rest.head?, EndsConversion character := by
  intro character first
  obtain ⟨more, rfl⟩ := List.head?_eq_some_iff.mp first
  constructor
  · rintro rfl
    exact noPercent more rfl
  · rintro rfl
    exact noMarker more rfl

/-- The markers of a text are those in front of a character that ends conversions and those
behind it. The front may end in the middle of what looks like a conversion. A character that
ends conversions cannot continue it, so a percent sign before it is stray, and reading the
whole fails as reading the front does.

Proof: by the steps in which the front is read. A pair of signs and a marker pass over two
characters at once, and every other character over one, so the places behind are shifted by
what has been passed. -/
theorem markerPlaces?_append (front : List Char) (ends : EndsConversion character)
    (rest : List Char) :
    markerPlaces? place (front ++ character :: rest) =
      (markerPlaces? place front).bind fun own =>
        (markerPlaces? (place + front.length + 1) rest).map (own ++ ·) := by
  fun_induction markerPlaces? place front with
  | case1 place => simp [markerPlaces?_cons place ends.1]
  | case2 place more inductionHypothesis =>
    have count : place + 2 + more.length + 1 = place + ('%' :: '%' :: more).length + 1 := by
      simp only [List.length_cons]
      omega
    rw [← count, ← inductionHypothesis]
    rfl
  | case3 place more inductionHypothesis =>
    have count : place + 2 + more.length + 1 = place + ('%' :: 's' :: more).length + 1 := by
      simp only [List.length_cons]
      omega
    have marked : markerPlaces? place ('%' :: 's' :: more ++ character :: rest) =
        (markerPlaces? (place + 2) (more ++ character :: rest)).map (place :: ·) := rfl
    rw [← count, marked, inductionHypothesis]
    cases markerPlaces? (place + 2) more <;>
      simp [Function.comp_def]
  | case4 place more noPercent noMarker =>
    -- A percent sign at the end of the front is stray too: what follows does not go on with it.
    have ended : ∀ first ∈ (more ++ character :: rest).head?, EndsConversion first := by
      cases more with
      | nil =>
        rintro _ ⟨⟩
        exact ends
      | cons first others =>
        rintro _ ⟨⟩
        exact endsConversion_of_head? noPercent noMarker first rfl
    exact markerPlaces?_stray place ended
  | case5 place first more _ _ plain inductionHypothesis =>
    have count : place + 1 + more.length + 1 = place + (first :: more).length + 1 := by
      simp only [List.length_cons]
      omega
    rw [← count, ← inductionHypothesis]
    exact markerPlaces?_cons place plain _

/-- A character that ends conversions can be written twice without a change of the number of
markers. This is what quoting does with a quotation mark within a name, so the quoted name
has the markers of the name itself, at other places. -/
theorem length_markerPlaces?_doubled (ends : EndsConversion character) (name : List Char)
    (other : Nat) :
    (markerPlaces? place (doubled character name)).map List.length =
      (markerPlaces? other name).map List.length := by
  fun_induction markerPlaces? other name generalizing place with
  | case1 other => rfl
  | case2 other more inductionHypothesis =>
    have spelled : doubled character ('%' :: '%' :: more) = '%' :: '%' :: doubled character more := by
      simp only [doubled, if_neg ends.1.symm]
    rw [spelled, ← inductionHypothesis (place + 2)]
    rfl
  | case3 other more inductionHypothesis =>
    have spelled : doubled character ('%' :: 's' :: more) = '%' :: 's' :: doubled character more := by
      simp only [doubled, if_neg ends.1.symm, if_neg ends.2.symm]
    have counted (start : Nat) (rest : List Char) :
        (markerPlaces? start ('%' :: 's' :: rest)).map List.length =
          ((markerPlaces? (start + 2) rest).map List.length).map (· + 1) := by
      rw [markerPlaces?, Option.map_map, Option.map_map]
      rfl
    rw [spelled, counted, inductionHypothesis, ← counted]
    rfl
  | case4 other more noPercent noMarker =>
    have spelled : doubled character ('%' :: more) = '%' :: doubled character more := by
      simp only [doubled, if_neg ends.1.symm]
    have ended : ∀ first ∈ (doubled character more).head?, EndsConversion first := by
      cases more with
      | nil => rintro _ ⟨⟩
      | cons first others =>
        have own := endsConversion_of_head? noPercent noMarker first rfl
        rw [doubled]
        split
        · rintro _ ⟨⟩
          exact ends
        · rintro _ ⟨⟩
          exact own
    rw [spelled, markerPlaces?_stray place ended]
  | case5 other first more _ _ plain inductionHypothesis =>
    rw [doubled]
    split
    · rw [markerPlaces?_cons _ ends.1, markerPlaces?_cons _ ends.1]
      exact inductionHypothesis _
    · rw [markerPlaces?_cons _ plain]
      exact inductionHypothesis _

/-- The quote character of names goes on with no percent sign. -/
theorem endsConversion_quote : EndsConversion Dialect.mysql.quote := by
  constructor <;> decide

/-- The markers of a text behind a quoted name are behind those of the name. -/
theorem markerPlaces?_identifier (name : String) (rest : List Char) :
    markerPlaces? place ((Dialect.mysql.identifier name).toList ++ rest) =
      (markerPlaces? (place + 1) (doubled Dialect.mysql.quote name.toList)).bind fun own =>
        (markerPlaces? (place + (Dialect.mysql.identifier name).toList.length) rest).map
          (own ++ ·) := by
  have spelled : (Dialect.mysql.identifier name).toList =
      Dialect.mysql.quote ::
        (doubled Dialect.mysql.quote name.toList ++ [Dialect.mysql.quote]) := by
    rw [Dialect.identifier, quoted, String.toList_ofList]
  have count : place + 1 + (doubled Dialect.mysql.quote name.toList).length + 1 =
      place + (Dialect.mysql.identifier name).toList.length := by
    rw [spelled, List.length_cons, List.length_append, List.length_singleton]
    omega
  rw [← count, spelled, List.cons_append, markerPlaces?_cons _ endsConversion_quote.1,
    List.append_assoc, List.singleton_append, markerPlaces?_append _ _ endsConversion_quote]

/-- A name has its percent signs in pairs when there is no marker in it, wherever it stands
between quote characters. -/
theorem percentsPaired_iff (name : String) :
    PercentsPaired name ↔
      markerPlaces? place (doubled Dialect.mysql.quote name.toList) = some [] := by
  have empty (found : Option (List Nat)) : found = some [] ↔ found.map List.length = some 0 := by
    cases found <;> simp
  rw [PercentsPaired, empty, empty, length_markerPlaces?_doubled place endsConversion_quote _ 0]

end

end EventSieve.Clause
