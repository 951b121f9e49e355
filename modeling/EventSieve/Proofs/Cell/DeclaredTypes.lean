import EventSieve.Proofs.Cell.Conversion

/-!
# What a conversion gives

A conversion that succeeds gives null or a value of the kind that the type declares, and
in an enumeration the first variant that has the letters of the trimmed text. It gives
null for the cells that hold no value and for no others: these are null itself, what is
not a number, and three words. They convert to every type.

A JSON column reads null and one of the words as the empty object instead, and the empty
text too. The two lists overlap without either containing the other, so which of them is
looked at first decides about null and that word.
-/

namespace EventSieve

/-- Whether a variant is the first one of a list that has the letters of a word. -/
def Text.IsFirstLike (variants : List String) (word variant : String) : Prop :=
  ∃ front back, variants = front ++ variant :: back ∧ lower variant = lower word ∧
    ∀ other ∈ front, lower other ≠ lower word

/-- Texts agree up to case when their small letters are the same. -/
theorem Text.sameLetters_iff_lower (left right : String) :
    sameLetters left right = true ↔ lower left = lower right := by
  rw [sameLetters_iff, lower, lower, String.ofList_inj]

/-- The search for the letters of a word ends at the first variant that has them. -/
theorem Text.isFirstLike_of_find? {variants : List String} {word variant : String}
    (found : variants.find? (fun other => sameLetters other word) = some variant) :
    IsFirstLike variants word variant := by
  obtain ⟨letters, front, back, split, before⟩ := List.find?_eq_some_iff_append.mp found
  refine ⟨front, back, split, (sameLetters_iff_lower _ _).mp letters, ?_⟩
  intro other member same
  have passed := before other member
  rw [(sameLetters_iff_lower _ _).mpr same] at passed
  cases passed

namespace Cell

/-- The cells that hold no value. -/
inductive IsMissing : Cell → Prop where
  | null : IsMissing .null
  | notANumber : IsMissing (.float .nan)
  | noneWord : IsMissing (.text "None")
  | nullWord : IsMissing (.text "null")
  | nanWord : IsMissing (.text "nan")

/-- The cells that a JSON column reads as the empty object. -/
inductive IsBare : Cell → Prop where
  | null : IsBare .null
  | noneWord : IsBare (.text "None")
  | emptyText : IsBare (.text "")

section

variable {type : ColumnType} {cell converted : Cell}

/-- A cell holds no value exactly when it is taken for null. -/
theorem isNullLike_iff : cell.isNullLike = true ↔ cell.IsMissing := by
  constructor
  · intro empty
    cases cell with
    | null => exact .null
    | float value =>
      cases value with
      | nan => exact .notANumber
      | infinite | finite => cases empty
    | text value =>
      have word : value ∈ emptyWords := List.contains_iff_mem.mp empty
      simp only [emptyWords, List.mem_cons, List.not_mem_nil, or_false] at word
      rcases word with rfl | rfl | rfl
      · exact .noneWord
      · exact .nullWord
      · exact .nanWord
    | boolean | integer | instant | span | zone | json => cases empty
  · rintro ⟨⟩ <;> rfl

/-- A cell is read as the empty object exactly when it is null, a word for it or empty. -/
theorem isEmptyObject_iff : cell.isEmptyObject = true ↔ cell.IsBare := by
  constructor
  · intro empty
    cases cell with
    | null => exact .null
    | text value =>
      simp only [isEmptyObject, Bool.or_eq_true, decide_eq_true_eq] at empty
      rcases empty with rfl | rfl
      · exact .emptyText
      · exact .noneWord
    | boolean | integer | float | instant | span | zone | json => cases empty
  · rintro ⟨⟩ <;> rfl

/-- A cell that holds a value of a declared kind is there. -/
theorem Holds.ne_null (held : cell.Holds type) : cell ≠ .null := by
  rintro rfl
  cases type
  all_goals
    obtain ⟨value, other⟩ := held
    cases other

/-- What an enumeration with variants makes of a cell is the first variant that has the
letters of the trimmed text of the cell. -/
theorem exists_isFirstLike_of_toType? {variants : List String} (present : variants ≠ [])
    (made : cell.toType? (.enum variants) = some converted) :
    ∃ variant, converted = .text variant ∧
      Text.IsFirstLike variants (Text.trim cell.display) variant := by
  simp only [toType?, toVariant?, List.isEmpty_iff, present, if_false] at made
  obtain ⟨variant, found, rfl⟩ := Option.map_eq_some_iff.mp made
  exact ⟨variant, rfl, Text.isFirstLike_of_find? found⟩

/-- What a conversion to a declared type may give for a cell. -/
structure Conforms (type : ColumnType) (cell converted : Cell) : Prop where
  kind : converted = .null ∨ converted.Holds type
  variant : ∀ variants, type = .enum variants → variants ≠ [] → converted ≠ .null →
    ∃ variant, converted = .text variant ∧
      Text.IsFirstLike variants (Text.trim cell.display) variant
  null_iff : converted = .null ↔ cell.IsMissing ∧ ¬ (type = .json ∧ cell.IsBare)
  object : type = .json → cell.IsBare → converted = .json (.object [])

/-- The empty object conforms for a cell that a JSON column reads as it. -/
theorem conforms_object (bare : cell.IsBare) : Conforms .json cell (.json (.object [])) where
  kind := .inr ⟨_, rfl⟩
  variant := by
    rintro variants ⟨⟩
  null_iff := by
    constructor
    · intro other
      cases other
    · rintro ⟨_, filled⟩
      exact absurd ⟨rfl, bare⟩ filled
  object _ _ := rfl

/-- Null conforms for a cell that holds no value and is not read as the empty object. -/
theorem conforms_null (missing : cell.IsMissing) (filled : ¬ (type = .json ∧ cell.IsBare)) :
    Conforms type cell .null where
  kind := .inl rfl
  variant _ _ _ present := absurd rfl present
  null_iff := iff_of_true rfl ⟨missing, filled⟩
  object json bare := absurd ⟨json, bare⟩ filled

/-- What a type makes of a cell that holds a value conforms. -/
theorem conforms_of_toType? (known : ¬ cell.IsMissing) (filled : ¬ (type = .json ∧ cell.IsBare))
    (made : cell.toType? type = some converted) : Conforms type cell converted where
  kind := .inr (holds_of_toType? made)
  variant := by
    rintro variants rfl present _
    exact exists_isFirstLike_of_toType? present made
  null_iff := iff_of_false (holds_of_toType? made).ne_null fun both => known both.1
  object json bare := absurd ⟨json, bare⟩ filled

/-- What a conversion gives conforms to the declared type. -/
theorem conforms_of_convert (made : cell.convert type = .ok converted) :
    Conforms type cell converted := by
  rcases convert_eq_ok_iff.mp made with
    ⟨⟨rfl, object⟩, rfl⟩ | ⟨filled, ⟨empty, rfl⟩ | ⟨known, found⟩⟩
  · exact conforms_object (isEmptyObject_iff.mp object)
  · rw [isEmptyObject_iff] at filled
    exact conforms_null (isNullLike_iff.mp empty) filled
  · rw [isEmptyObject_iff] at filled
    exact conforms_of_toType? (fun missing => by simp [isNullLike_iff.mpr missing] at known) filled
      found

end

/-- Whatever a conversion gives conforms to the declared type, and a cell that holds no
value, or that a JSON column reads as the empty object, always converts. So a column of
declared type never shows a cell of another kind, whatever its rows hold.

Proof: the ways of a conversion are the cases of the relation, with the tests for cells that
stand for no value replaced by what they say about cells. The converse needs no look at the
type, because a cell that holds nothing is converted before its type is asked. -/
theorem conversions_conform (type : ColumnType) (cell : Cell) :
    (∀ converted, cell.convert type = .ok converted → Conforms type cell converted) ∧
      (cell.IsMissing ∨ type = .json ∧ cell.IsBare →
        ∃ converted, cell.convert type = .ok converted) := by
  refine ⟨fun converted made => conforms_of_convert made, ?_⟩
  rintro (missing | ⟨rfl, bare⟩)
  · exact convert_isOk_of_isNullLike type cell (isNullLike_iff.mpr missing)
  · refine ⟨.json (.object []), convert_eq_ok_iff.mpr (.inl ⟨⟨rfl, ?_⟩, rfl⟩)⟩
    exact isEmptyObject_iff.mpr bare

/-- A word between blanks becomes the first of two variants that have its letters, and the
word for nothing becomes the empty object in a JSON column. -/
theorem conversions_conform_spellings :
    (Cell.text " game ").convert (.enum ["GENERATED", "Game", "GAME"]) = .ok (.text "Game") ∧
      Conforms (.enum ["GENERATED", "Game", "GAME"]) (.text " game ") (.text "Game") ∧
        IsBare (.text "None") ∧ ∃ converted, (Cell.text "None").convert .json = .ok converted := by
  have made : (Cell.text " game ").convert (.enum ["GENERATED", "Game", "GAME"]) =
      .ok (.text "Game") := by
    rfl
  exact ⟨made, (conversions_conform _ _).1 _ made, .noneWord,
    (conversions_conform .json (.text "None")).2 (.inl .noneWord)⟩

end Cell

end EventSieve
