import EventSieve.Cell.Convert
import EventSieve.Proofs.Text.Numeral

/-!
# Converting twice

A cell that a conversion gave converts to itself, so converting twice changes
nothing more. That fails for texts alone where they come from JSON: the text of JSON
null is a word that stands for no value, and is taken for one the second time. The
texts of all other cells with a value have a digit or another character that no such
word has, or are known.
-/

namespace EventSieve

open Text (decimalChars paddedChars isDigit_of_mem_decimalChars isDigit_of_mem_paddedChars)

/-- Whether some character is a digit. -/
def Text.HasDigit (text : List Char) : Prop :=
  ∃ digit ∈ text, digit.isDigit = true

/-- A text with a character that no word for no value has is not such a word. -/
theorem Text.not_mem_emptyWords_of_mem {text : String} (character : Char)
    (inside : character ∈ text.toList)
    (foreign : Cell.emptyWords.all (fun word => !word.toList.contains character) = true) :
    text ∉ Cell.emptyWords := by
  intro word
  have outside := List.all_eq_true.mp foreign text word
  rw [List.contains_iff_mem.mpr inside] at outside
  cases outside

/-- A text with a digit is not a word that stands for no value. -/
theorem Text.HasDigit.not_mem_emptyWords {text : String} (digits : HasDigit text.toList) :
    text ∉ Cell.emptyWords := by
  have wordless : ∀ word ∈ Cell.emptyWords,
      word.toList.all (fun character => !character.isDigit) = true := by
    decide
  obtain ⟨digit, inside, isDigit⟩ := digits
  intro word
  have digitless := List.all_eq_true.mp (wordless text word) digit inside
  rw [isDigit] at digitless
  cases digitless

/-- A text has a digit when a part of it has. -/
theorem Text.HasDigit.mono {part text : List Char} (digits : HasDigit part)
    (within : ∀ character ∈ part, character ∈ text) : HasDigit text := by
  obtain ⟨digit, inside, isDigit⟩ := digits
  exact ⟨digit, within digit inside, isDigit⟩

/-- A numeral has a digit. -/
theorem Text.hasDigit_decimalChars (value : Nat) : HasDigit (decimalChars value) := by
  obtain ⟨digit, rest, same⟩ :=
    List.exists_cons_of_ne_nil (Nat.toDigits_ne_nil (n := value) (b := 10))
  have inside : digit ∈ decimalChars value := by
    rw [decimalChars, same]
    exact List.mem_cons_self
  exact ⟨digit, inside, isDigit_of_mem_decimalChars inside⟩

/-- A padded numeral has a digit. -/
theorem Text.hasDigit_paddedChars (width value : Nat) : HasDigit (paddedChars width value) :=
  (hasDigit_decimalChars value).mono fun _ inside => List.mem_append_right _ inside

/-- An integer has a digit. -/
theorem Number.hasDigit_integerText (value : Int) : Text.HasDigit (integerText value).toList := by
  apply (Text.hasDigit_decimalChars value.natAbs).mono
  intro character inside
  rw [integerText, String.toList_ofList]
  split
  · exact List.mem_cons_of_mem _ inside
  · exact inside

/-- A decimal in positional notation has a digit. -/
theorem Number.Decimal.hasDigit_positionalChars (showsFraction : Bool) (decimal : Decimal) :
    Text.HasDigit (decimal.positionalChars showsFraction) := by
  apply (Text.hasDigit_decimalChars decimal.coefficient).mono
  intro character inside
  simp only [positionalChars]
  split
  · exact List.mem_append_left _ (List.mem_append_left _ inside)
  · split
    · have parts := List.take_append_drop
        ((decimalChars decimal.coefficient).length + decimal.scale).toNat
        (decimalChars decimal.coefficient)
      rw [← parts] at inside
      rcases List.mem_append.mp inside with front | back
      · exact List.mem_append_left _ front
      · exact List.mem_append_right _ (List.mem_cons_of_mem _ back)
    · exact List.mem_cons_of_mem _ (List.mem_cons_of_mem _ (List.mem_append_right _ inside))

/-- A decimal with an exponent has a digit. -/
theorem Number.Decimal.hasDigit_scientificChars (decimal : Decimal) :
    Text.HasDigit decimal.scientificChars := by
  refine (Text.hasDigit_decimalChars
    (((decimalChars decimal.coefficient).length + decimal.scale - 1 : Int).natAbs)).mono
      fun character inside => ?_
  rw [scientificChars]
  simp [inside]

/-- A finite floating-point value has a digit in every style. -/
theorem Number.hasDigit_floatText (style : FloatStyle) (negative : Bool) (significand : Nat)
    (exponent : Int) (canonical : Canonical significand exponent) :
    Text.HasDigit (floatText style (.finite negative significand exponent canonical)).toList := by
  have magnitude : Text.HasDigit (magnitudeChars style significand exponent) := by
    simp only [magnitudeChars]
    cases style.positional with
    | none => exact Decimal.hasDigit_positionalChars _ _
    | some range =>
      simp only
      split
      · exact Decimal.hasDigit_positionalChars _ _
      · exact Decimal.hasDigit_scientificChars _
  apply magnitude.mono
  intro character inside
  rw [floatText, String.toList_ofList]
  split
  · exact List.mem_cons_of_mem _ inside
  · exact inside

/-- The text of an instant has a digit. -/
theorem Time.Instant.hasDigit_text (instant : Instant) : Text.HasDigit instant.text.toList := by
  refine (Text.hasDigit_paddedChars 2 (Date.ofDayNumber instant.dayNumber).month).mono
    fun character inside => ?_
  rw [text, String.toList_ofList, chars]
  simp [inside]

/-- The text of a length of time has a digit. -/
theorem Time.Span.hasDigit_text (span : Span) : Text.HasDigit span.text.toList := by
  refine (Text.hasDigit_decimalChars
    ((span.micros % microsPerDay).toNat / 1000000 / 3600)).mono fun character inside => ?_
  rw [text, String.toList_ofList, clockChars]
  simp [inside]

/-- The text of a time zone is not a word that stands for no value. -/
theorem Time.Zone.text_not_mem_emptyWords (zone : Zone) : zone.text ∉ Cell.emptyWords := by
  cases zone with
  | fixed east below =>
    have shown : (fixed east below).text.toList = "UTC".toList ++ offsetChars east :=
      String.toList_ofList
    apply Text.HasDigit.not_mem_emptyWords
    apply (Text.hasDigit_paddedChars 2 (east.natAbs / 3600)).mono
    intro character inside
    rw [shown, offsetChars]
    simp [inside]
  | named name known =>
    have others : ∀ word ∈ Cell.emptyWords, zoneNames.contains word = false := by decide +kernel
    intro word
    exact Bool.false_ne_true ((others name word).symm.trans known)

/-- The compact text of a JSON value other than null is not a word that stands for no value.
A number has a digit, and every other text begins with a mark that no such word has: a
quotation mark, a bracket or a brace. What is left are the two truth values and the words
for numbers that are not finite, which are looked at one by one. -/
theorem Json.compact_not_mem_emptyWords {value : Json} (other : value ≠ .null) :
    value.compact ∉ Cell.emptyWords := by
  cases value with
  | null => exact absurd rfl other
  | boolean value => cases value <;> decide
  | number value =>
    cases value with
    | integer value =>
      have shown : (Json.number (.integer value)).compact = Number.integerText value :=
        String.empty_append
      rw [shown]
      exact (EventSieve.Number.hasDigit_integerText value).not_mem_emptyWords
    | float value =>
      have shown : (Json.number (.float value)).compact =
          EventSieve.Number.floatText EventSieve.Number.documentStyle value := String.empty_append
      rw [shown]
      cases value with
      | nan => decide
      | infinite negative => cases negative <;> decide
      | finite negative significand exponent canonical =>
        exact (EventSieve.Number.hasDigit_floatText _ _ _ _ canonical).not_mem_emptyWords
  | text value =>
    have shown : (Json.text value).compact = quoted value := String.empty_append
    rw [shown]
    exact Text.not_mem_emptyWords_of_mem '"' (by simp [quoted]) (by decide)
  | list items =>
    have shown : (Json.list items).compact = compactItemsAfter ("[" ++ "") items ++ "]" := rfl
    rw [shown, compactItemsAfter_append]
    exact Text.not_mem_emptyWords_of_mem '[' (by simp) (by decide)
  | object members =>
    have shown : (Json.object members).compact =
        compactMembersAfter ("\x7b" ++ "") members ++ "\x7d" := rfl
    rw [shown, compactMembersAfter_append]
    exact Text.not_mem_emptyWords_of_mem '\x7b' (by simp) (by decide)

namespace Cell

/-- The text of a cell that stands for a value, and is not JSON null, stands for one. -/
theorem display_not_mem_emptyWords {cell : Cell} (known : cell.isNullLike = false)
    (other : cell ≠ .json .null) : cell.display ∉ emptyWords := by
  cases cell with
  | null => cases known
  | boolean value => cases value <;> decide
  | integer value => exact (Number.hasDigit_integerText value.toInt).not_mem_emptyWords
  | float value =>
    cases value with
    | nan => cases known
    | infinite negative => cases negative <;> decide
    | finite negative significand exponent canonical =>
      exact (Number.hasDigit_floatText _ _ _ _ canonical).not_mem_emptyWords
  | text value => simpa [isNullLike, display] using known
  | instant value => exact value.hasDigit_text.not_mem_emptyWords
  | span value => exact value.hasDigit_text.not_mem_emptyWords
  | zone value => exact value.text_not_mem_emptyWords
  | json value => exact value.compact_not_mem_emptyWords fun null => other (congrArg _ null)

/-- A text that stands for a value converts to itself. -/
theorem convert_text {text : String} (known : text ∉ emptyWords) :
    (Cell.text text).convert .str = .ok (.text text) := by
  have word : (Cell.text text).isNullLike = false := by simpa [isNullLike] using known
  rw [convert, word]
  rfl

/-- Whether a cell is null or of the kind that a type declares. -/
def IsOf : ColumnType → Cell → Prop
  | _, .null => True
  | .str, .text _ => True
  | .int, .integer _ => True
  | .float, .float _ => True
  | .bool, .boolean _ => True
  | .datetime, .instant _ => True
  | .timedelta, .span _ => True
  | .timezone, .zone _ => True
  | .json, .json _ => True
  | .enum _, .text _ => True
  | _, _ => False

/-- Whether a cell holds a value of the kind that a type declares. -/
def Holds (cell : Cell) : ColumnType → Prop
  | .str | .enum _ => ∃ value, cell = .text value
  | .int => ∃ value, cell = .integer value
  | .float => ∃ value, cell = .float value
  | .bool => ∃ value, cell = .boolean value
  | .datetime => ∃ value, cell = .instant value
  | .timedelta => ∃ value, cell = .span value
  | .timezone => ∃ value, cell = .zone value
  | .json => ∃ value, cell = .json value

/-- A cell that is there and of a declared kind holds a value of it. -/
theorem IsOf.holds {type : ColumnType} {cell : Cell} (kind : cell.IsOf type)
    (present : cell ≠ .null) : cell.Holds type := by
  cases type <;> cases cell <;>
    first
      | exact ⟨_, rfl⟩
      | exact absurd rfl present
      | exact kind.elim

/-- A cell that holds a value of a declared kind is of this kind. -/
theorem Holds.isOf {type : ColumnType} {cell : Cell} (held : cell.Holds type) : cell.IsOf type := by
  cases type
  all_goals
    obtain ⟨value, rfl⟩ := held
    trivial

/-- A value that is found and put into a cell is held by this cell. -/
theorem holds_of_map {Value : Type} {type : ColumnType} {found : Option Value}
    {cellOf : Value → Cell} {converted : Cell} (made : found.map cellOf = some converted)
    (held : ∀ value, (cellOf value).Holds type) : converted.Holds type := by
  obtain ⟨value, -, rfl⟩ := Option.map_eq_some_iff.mp made
  exact held value

/-- What a type makes of a cell holds a value of the kind that the type declares. The cases
follow the table of conversions: a type and the kind of the cell together decide whether
anything is made at all, and where a text is read, its reading can only give a value of the
kind. -/
theorem holds_of_toType? {type : ColumnType} {cell converted : Cell}
    (made : cell.toType? type = some converted) : converted.Holds type := by
  cases type with
  | str =>
    cases made
    exact ⟨_, rfl⟩
  | enum variants =>
    simp only [toType?, toVariant?] at made
    split at made
    · cases made
      exact ⟨_, rfl⟩
    · exact holds_of_map made fun _ => ⟨_, rfl⟩
  | int =>
    cases cell with
    | integer | boolean =>
      cases made
      exact ⟨_, rfl⟩
    | float | text => exact holds_of_map made fun _ => ⟨_, rfl⟩
    | null | instant | span | zone | json => cases made
  | float =>
    cases cell with
    | float | integer =>
      cases made
      exact ⟨_, rfl⟩
    | text => exact holds_of_map made fun _ => ⟨_, rfl⟩
    | null | boolean | instant | span | zone | json => cases made
  | bool =>
    cases cell with
    | boolean =>
      cases made
      exact ⟨_, rfl⟩
    | integer value =>
      simp only [toType?, toBoolean?] at made
      split at made
      · cases made
        exact ⟨_, rfl⟩
      · split at made
        · cases made
          exact ⟨_, rfl⟩
        · cases made
    | text value =>
      simp only [toType?, toBoolean?] at made
      exact holds_of_map made fun _ => ⟨_, rfl⟩
    | null | float | instant | span | zone | json => cases made
  | datetime =>
    cases cell with
    | instant =>
      cases made
      exact ⟨_, rfl⟩
    | text => exact holds_of_map made fun _ => ⟨_, rfl⟩
    | null | boolean | integer | float | span | zone | json => cases made
  | timedelta =>
    cases cell with
    | span =>
      cases made
      exact ⟨_, rfl⟩
    | text => exact holds_of_map made fun _ => ⟨_, rfl⟩
    | null | boolean | integer | float | instant | zone | json => cases made
  | timezone =>
    cases cell with
    | zone =>
      cases made
      exact ⟨_, rfl⟩
    | text => exact holds_of_map made fun _ => ⟨_, rfl⟩
    | null | boolean | integer | float | instant | span | json => cases made
  | json =>
    cases cell with
    | json =>
      cases made
      exact ⟨_, rfl⟩
    | text => exact holds_of_map made fun _ => ⟨_, rfl⟩
    | null | boolean | integer | float | instant | span | zone => cases made

/-- What a type makes of a cell is of the kind that the type declares. -/
theorem isOf_of_toType? {type : ColumnType} {cell converted : Cell}
    (made : cell.toType? type = some converted) : converted.IsOf type :=
  (holds_of_toType? made).isOf

/-- What a conversion gives: an empty object in place of one, null for what else stands for
no value, or what the type makes of a cell that stands for one. The three ways exclude each
other, so a fact about converted cells needs to be shown once for each of them and never
looks at the tests themselves. -/
theorem convert_eq_ok_iff {type : ColumnType} {cell converted : Cell} :
    cell.convert type = .ok converted ↔
      (type = .json ∧ cell.isEmptyObject = true) ∧ converted = .json (.object []) ∨
        ¬ (type = .json ∧ cell.isEmptyObject = true) ∧
          (cell.isNullLike = true ∧ converted = .null ∨
            cell.isNullLike = false ∧ cell.toType? type = some converted) := by
  rw [convert]
  by_cases empty : type = .json ∧ cell.isEmptyObject = true
  · rw [if_pos (by simp [empty])]
    constructor
    · rintro ⟨⟩
      exact .inl ⟨empty, rfl⟩
    · rintro (⟨_, rfl⟩ | ⟨filled, _⟩)
      · rfl
      · exact absurd empty filled
  · rw [if_neg (by simpa using empty), or_iff_right fun both => empty both.1, and_iff_right empty]
    cases known : cell.isNullLike with
    | true =>
      constructor
      · rintro ⟨⟩
        exact .inl ⟨rfl, rfl⟩
      · rintro (⟨_, rfl⟩ | ⟨absent, _⟩)
        · rfl
        · cases absent
    | false => cases found : cell.toType? type <;> simp

/-- What a type other than JSON makes of a cell that stands for a value is what this
converts to. -/
theorem convert_of_toType? {type : ColumnType} {cell converted : Cell} (other : type ≠ .json)
    (known : cell.isNullLike = false) (found : cell.toType? type = some converted) :
    cell.convert type = .ok converted :=
  convert_eq_ok_iff.mpr (.inr ⟨fun json => other json.1, .inr ⟨known, found⟩⟩)

/-- What a conversion gives: null, an empty object in place of one, or what the type
makes of a cell that stands for a value. -/
theorem convert_eq_ok {type : ColumnType} {cell converted : Cell}
    (made : cell.convert type = .ok converted) :
    (type = .json ∧ converted = .json (.object [])) ∨ converted = .null ∨
      (cell.isNullLike = false ∧ cell.toType? type = some converted) := by
  rcases convert_eq_ok_iff.mp made with ⟨⟨json, _⟩, object⟩ | ⟨_, ⟨_, null⟩ | valued⟩
  · exact .inl ⟨json, object⟩
  · exact .inr (.inl null)
  · exact .inr (.inr valued)

/-- A conversion that fails tells the kind and the text of its cell. -/
theorem convert_eq_error {type : ColumnType} {cell : Cell} {error : ConvertError}
    (failed : cell.convert type = .error error) :
    error = .incompatible cell.kind cell.display type := by
  simp only [convert] at failed
  split at failed
  · cases failed
  · split at failed
    · cases failed
    · split at failed
      · cases failed
      · cases failed
        rfl

/-- A converted cell is of the kind that its type declares. -/
theorem isOf_of_convert {type : ColumnType} {cell converted : Cell}
    (made : cell.convert type = .ok converted) : converted.IsOf type := by
  rcases convert_eq_ok made with ⟨rfl, rfl⟩ | rfl | ⟨_, found⟩
  · trivial
  · cases type <;> trivial
  · exact isOf_of_toType? found

/-- A cell of an enumeration is null or one of its variants. -/
theorem variant_of_convert {variants : List String} (present : variants ≠ []) {cell converted : Cell}
    (made : cell.convert (.enum variants) = .ok converted) :
    converted = .null ∨ ∃ variant ∈ variants, converted = .text variant := by
  rcases convert_eq_ok made with ⟨other, _⟩ | null | ⟨_, found⟩
  · cases other
  · exact .inl null
  · simp only [toType?, toVariant?, List.isEmpty_iff, present, if_false] at found
    obtain ⟨variant, chosen, rfl⟩ := Option.map_eq_some_iff.mp found
    exact .inr ⟨variant, List.mem_of_find?_eq_some chosen, rfl⟩

end Cell

/-- Whether the converted cells of a type convert to themselves. A floating-point value
may be no number, and a variant may be read as another one. -/
def ColumnType.IsStable : ColumnType → Prop
  | .float => False
  | .enum variants => variants ≠ [] ∧
      ∀ variant ∈ variants, (Cell.text variant).convert (.enum variants) = .ok (.text variant)
  | _ => True

/-- Converting twice changes nothing more. Null does not count in a JSON column, where it
becomes an empty object, nor does JSON null in a column of texts. A converted cell is
already of the kind that its type declares, and such a cell is kept as it is. Only texts
have to be looked at again, since a text may be a word that stands for no value. -/
theorem Cell.convert_convert {type : ColumnType} {cell converted : Cell} (stable : type.IsStable)
    (plain : type = .str → cell ≠ .json .null) (present : type = .json → converted ≠ .null)
    (made : cell.convert type = .ok converted) : converted.convert type = .ok converted := by
  rcases convert_eq_ok made with ⟨rfl, rfl⟩ | rfl | ⟨known, found⟩
  · rfl
  · have other : ¬ type = .json := fun same => present same rfl
    simp [convert, other, isNullLike]
  · have kind := isOf_of_toType? found
    cases type with
    | float => exact stable.elim
    | str =>
      cases found
      exact convert_text (display_not_mem_emptyWords known (plain rfl))
    | enum variants =>
      obtain ⟨some, kept⟩ := stable
      rcases variant_of_convert some made with rfl | ⟨variant, member, rfl⟩
      · rfl
      · exact kept variant member
    | int | bool | datetime | timedelta | timezone | json =>
      cases converted with
      | null => first | rfl | exact absurd rfl (present rfl)
      | _ => first | rfl | exact kind.elim

end EventSieve
