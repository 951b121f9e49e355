import EventSieve.Proofs.Cell.Conversion
import EventSieve.Proofs.Number.NotFinite
import EventSieve.Proofs.Text.Letters

/-!
# What converting a second time changes

Words for no value are looked for before a conversion, and a cell that was converted can
look like one: null in a JSON column, which stands for the empty object there, a text that
spells not-a-number, JSON null as a text, or a variant that is itself such a word. These
cells relapse: converting a second time makes nothing of them, and every later time too.
All other converted cells convert to themselves.
-/

namespace EventSieve

/-- The cell that stands for nothing in a column of a type. -/
def ColumnType.nothing : ColumnType → Cell
  | .json => .json (.object [])
  | _ => .null

/-- Null converts to nothing. -/
theorem Cell.convert_null (type : ColumnType) : Cell.null.convert type = .ok type.nothing := by
  cases type <;> rfl

/-- Nothing converts to itself. -/
theorem Cell.convert_nothing (type : ColumnType) :
    type.nothing.convert type = .ok type.nothing := by
  cases type <;> rfl

namespace Cell

/-- Whether nothing is made of what a cell converts to when it is converted again: of null in
a JSON column, of what is not a number, of the text of JSON null, and of a variant that is
a word for no value. -/
def Relapses (type : ColumnType) (cell : Cell) : Prop :=
  match type with
  | .json => cell = .text "null" ∨ cell = .text "nan" ∨ cell = .float .nan
  | .float => ∃ value, cell = .text value ∧ value ≠ "nan" ∧
      Number.SpellsNaN (Text.trimChars value.toList)
  | .str => cell = .json .null
  | .enum [] => cell = .json .null
  | .enum variants => cell.isNullLike = false ∧ ∃ word ∈ emptyWords,
      variants.find? (fun variant => Text.sameLetters variant (Text.trim cell.display)) = some word
  | _ => False

section

variable {type : ColumnType} {cell converted : Cell}

/-- Whether converting a converted cell a second time makes nothing of it when the cell that
it was made of relapses, and changes nothing otherwise. -/
structure Settles (type : ColumnType) (cell converted : Cell) : Prop where
  emptied : cell.Relapses type →
    converted ≠ type.nothing ∧ converted.convert type = .ok type.nothing
  kept : ¬ cell.Relapses type → converted.convert type = .ok converted

/-- A cell that relapses settles when its conversion is made nothing of. -/
theorem settles_of_relapses (relapses : cell.Relapses type) (moved : converted ≠ type.nothing)
    (emptied : converted.convert type = .ok type.nothing) : cell.Settles type converted :=
  ⟨fun _ => ⟨moved, emptied⟩, fun stays => absurd relapses stays⟩

/-- A cell that does not relapse settles when its conversion is kept. -/
theorem settles_of_stays (stays : ¬ cell.Relapses type)
    (kept : converted.convert type = .ok converted) : cell.Settles type converted :=
  ⟨fun relapses => absurd relapses stays, fun _ => kept⟩

/-- A word that stands for no value converts to null unless the column is JSON. -/
theorem convert_emptyWord (other : type ≠ .json) {word : String} (known : word ∈ emptyWords) :
    (Cell.text word).convert type = .ok .null :=
  convert_eq_ok_iff.mpr (.inr ⟨fun json => other json.1,
    .inl ⟨List.contains_iff_mem.mpr known, rfl⟩⟩)

/-- A text stands for nothing in no column. -/
theorem text_ne_nothing (text : String) (type : ColumnType) : Cell.text text ≠ type.nothing := by
  intro same
  cases type <;> cases same

/-- A cell as its text relapses when it is JSON null. -/
theorem settles_display (known : cell.isNullLike = false) (texts : type = .str ∨ type = .enum [])
    (relapses : cell.Relapses type ↔ cell = .json .null) :
    cell.Settles type (.text cell.display) := by
  have other : type ≠ .json := by rcases texts with rfl | rfl <;> decide
  have nothing : type.nothing = .null := by rcases texts with rfl | rfl <;> rfl
  by_cases null : cell = .json .null
  · refine settles_of_relapses (relapses.mpr null) (text_ne_nothing _ _) ?_
    rw [nothing, null]
    exact convert_emptyWord other (by decide +kernel)
  · refine settles_of_stays (mt relapses.mp null) ?_
    have text : (Cell.text cell.display).isNullLike = false := by
      simpa [isNullLike] using display_not_mem_emptyWords known null
    apply convert_of_toType? other text
    rcases texts with rfl | rfl <;> rfl

/-- A variant with the letters of a trimmed word is found for its own text too. -/
theorem find?_variant {variants : List String} {text variant : String}
    (chosen : variants.find? (fun variant => Text.sameLetters variant (Text.trim text)) =
      some variant) :
    variants.find? (fun other => Text.sameLetters other (Text.trim variant)) = some variant := by
  have letters : Text.lowerChars variant.toList = Text.lowerChars (Text.trimChars text.toList) := by
    have same := List.find?_some chosen
    rwa [Text.sameLetters_iff, Text.trim, String.toList_ofList] at same
  have trimmed : Text.lowerChars (Text.trim variant).toList =
      Text.lowerChars (Text.trim text).toList := by
    rw [Text.trim, Text.trim, String.toList_ofList, String.toList_ofList,
      ← Text.trimChars_lowerChars, letters, Text.trimChars_lowerChars, Text.trimChars_trimChars]
  have same (other : String) : Text.sameLetters other (Text.trim variant) =
      Text.sameLetters other (Text.trim text) := by
    rw [Bool.eq_iff_iff, Text.sameLetters_iff, Text.sameLetters_iff, trimmed]
  simp only [same, chosen]

/-- A variant relapses when it is itself a word that stands for no value. -/
theorem settles_variant {first : String} {rest : List String} (known : cell.isNullLike = false)
    (found : cell.toType? (.enum (first :: rest)) = some converted) :
    cell.Settles (.enum (first :: rest)) converted := by
  obtain ⟨variant, chosen, rfl⟩ := Option.map_eq_some_iff.mp found
  have other : ColumnType.enum (first :: rest) ≠ .json := by
    intro same
    cases same
  by_cases word : variant ∈ emptyWords
  · exact settles_of_relapses ⟨known, variant, word, chosen⟩ (text_ne_nothing _ _)
      (convert_emptyWord other word)
  · refine settles_of_stays ?_ ?_
    · rintro ⟨_, other, inside, same⟩
      cases chosen.symm.trans same
      exact word inside
    · have text : (Cell.text variant).isNullLike = false := by simpa [isNullLike] using word
      exact convert_of_toType? other text
        (congrArg (Option.map Cell.text) (find?_variant chosen))

/-- A floating-point number converts to itself. -/
theorem convert_float {value : Number.Binary64} (number : value ≠ .nan) :
    (Cell.float value).convert .float = .ok (.float value) := by
  have known : (Cell.float value).isNullLike = false := by
    cases value with
    | nan => exact absurd rfl number
    | infinite | finite => rfl
  exact convert_of_toType? (by decide) known rfl

/-- A text that is read as a floating-point value relapses when it spells not-a-number.
Integers and cells of the type itself are never such a word, and a text is read as
not-a-number in any case of its letters and with a sign, while only one spelling of it
stands for no value. -/
theorem settles_float (known : cell.isNullLike = false)
    (found : cell.toType? .float = some converted) : cell.Settles .float converted := by
  cases cell with
  | float value =>
    cases found
    refine settles_of_stays (by rintro ⟨_, ⟨⟩, _⟩) (convert_float ?_)
    rintro rfl
    cases known
  | integer value =>
    cases found
    have number := Number.Binary64.ofFraction_ne_nan (value.toInt < 0) value.toInt.natAbs 1
    exact settles_of_stays (by rintro ⟨_, ⟨⟩, _⟩) (convert_float number)
  | text word =>
    obtain ⟨value, read, rfl⟩ := Option.map_eq_some_iff.mp found
    by_cases none : value = .nan
    · have spelled := Number.float?_eq_nan_iff.mp (none ▸ read)
      have other : word ≠ "nan" := by
        rintro rfl
        cases known
      refine settles_of_relapses ⟨word, rfl, other, spelled⟩ ?_ (none ▸ rfl)
      intro same
      cases same
    · refine settles_of_stays ?_ (convert_float none)
      rintro ⟨_, ⟨⟩, _, spelled⟩
      exact none (Option.some.inj (read.symm.trans (Number.float?_eq_nan_iff.mpr spelled)))
  | null | boolean | instant | span | zone | json => cases found

/-- In a JSON column the cells that relapse are those that stand for no value, and not for
the empty object. These are null as a word and not-a-number, as a word or as a value: they
become null, and null becomes an empty object the second time. -/
theorem relapses_json_iff :
    cell.Relapses .json ↔ cell.isNullLike = true ∧ cell.isEmptyObject = false := by
  constructor
  · rintro (rfl | rfl | rfl) <;> decide +kernel
  · rintro ⟨empty, full⟩
    cases cell with
    | text value =>
      have word : value ∈ emptyWords := List.contains_iff_mem.mp empty
      simp only [isEmptyObject, Bool.or_eq_false_iff, decide_eq_false_iff_not] at full
      simp only [emptyWords, List.mem_cons, List.not_mem_nil, or_false] at word
      rcases word with rfl | rfl | rfl
      · exact absurd rfl full.2
      · exact .inl rfl
      · exact .inr (.inl rfl)
    | float value =>
      cases value with
      | nan => exact .inr (.inr rfl)
      | infinite | finite => cases empty
    | null => cases full
    | boolean | integer | instant | span | zone | json => cases empty

/-- Outside of JSON columns a cell that relapses stands for a value. The words that stand
for no value are looked at one by one where a text is read as a number; elsewhere the
relation asks for a value or for a cell that plainly holds one. -/
theorem known_of_relapses (other : type ≠ .json) (relapses : cell.Relapses type) :
    cell.isNullLike = false := by
  cases type with
  | str =>
    cases relapses
    rfl
  | json => exact absurd rfl other
  | float =>
    obtain ⟨value, rfl, word, spelled⟩ := relapses
    apply Bool.eq_false_iff.mpr
    intro empty
    have member : value ∈ emptyWords := List.contains_iff_mem.mp empty
    simp only [emptyWords, List.mem_cons, List.not_mem_nil, or_false] at member
    rcases member with rfl | rfl | rfl
    · revert spelled
      decide +kernel
    · revert spelled
      decide +kernel
    · exact word rfl
  | enum variants =>
    cases variants with
    | nil =>
      cases relapses
      rfl
    | cons first rest => exact relapses.1
  | int | bool | datetime | timedelta | timezone => exact relapses.elim

/-- Every converted cell settles: it stays as it is when the cell that it was made of does
not relapse, and becomes what stands for nothing otherwise.

Proof: by the three ways of a conversion. The empty object and null are what stands for
nothing in some type, and only null in a JSON column is not kept. What a type makes of a
cell is kept for the types that have one spelling of each value; texts, floating-point
values and variants have a lemma each, for their text may be read in another way the second
time. -/
theorem settles_of_convert (made : cell.convert type = .ok converted) :
    cell.Settles type converted := by
  rcases convert_eq_ok_iff.mp made with
    ⟨⟨rfl, object⟩, rfl⟩ | ⟨filled, ⟨empty, rfl⟩ | ⟨known, found⟩⟩
  · refine settles_of_stays ?_ (convert_nothing .json)
    intro relapses
    exact Bool.false_ne_true ((relapses_json_iff.mp relapses).2.symm.trans object)
  · by_cases json : type = .json
    · subst json
      have full : cell.isEmptyObject = false := Bool.eq_false_iff.mpr fun object =>
        filled ⟨rfl, object⟩
      refine settles_of_relapses (relapses_json_iff.mpr ⟨empty, full⟩) ?_ (convert_null .json)
      intro same
      cases same
    · refine settles_of_stays ?_ ?_
      · intro relapses
        exact Bool.false_ne_true ((known_of_relapses json relapses).symm.trans empty)
      · have null := convert_null type
        cases type with
        | json => exact absurd rfl json
        | _ => exact null
  · cases type with
    | str =>
      cases found
      exact settles_display known (.inl rfl) Iff.rfl
    | float => exact settles_float known found
    | enum variants =>
      cases variants with
      | nil =>
        cases found
        exact settles_display known (.inr rfl) Iff.rfl
      | cons first rest => exact settles_variant known found
    | json =>
      refine settles_of_stays ?_ (convert_convert trivial (absurd · (by decide)) ?_ made)
      · intro relapses
        exact Bool.false_ne_true (known.symm.trans (relapses_json_iff.mp relapses).1)
      · rintro _ rfl
        cases cell with
        | text value =>
          obtain ⟨_, _, other⟩ := Option.map_eq_some_iff.mp found
          cases other
        | null | boolean | integer | float | instant | span | zone | json => cases found
    | int | bool | datetime | timedelta | timezone =>
      exact settles_of_stays id
        (convert_convert trivial (absurd · (by decide)) (absurd · (by decide)) made)

end

/-- Converting a converted cell a second time changes nothing exactly when the cell that it
was made of does not relapse. Otherwise nothing is made of it, which converts to itself.

Proof: every converted cell settles, which is shown type by type. So one that does not
relapse is kept; one that does is moved to what stands for nothing in its type, which is
another cell than the first conversion has given. -/
theorem convert_twice {type : ColumnType} {cell converted : Cell}
    (made : cell.convert type = .ok converted) :
    (converted.convert type = .ok converted ↔ ¬ cell.Relapses type) ∧
      (cell.Relapses type → converted.convert type = .ok type.nothing) ∧
        type.nothing.convert type = .ok type.nothing := by
  obtain ⟨emptied, kept⟩ := settles_of_convert made
  refine ⟨⟨?_, kept⟩, fun relapses => (emptied relapses).2, convert_nothing type⟩
  intro same relapses
  obtain ⟨moved, nothing⟩ := emptied relapses
  exact moved (Except.ok.inj (same.symm.trans nothing))

/-- A text that spells not-a-number relapses in a column of floating-point values. -/
theorem convert_twice_nan :
    (Cell.text "NaN").convert .float = .ok (.float .nan) ∧
      (Cell.float .nan).convert .float = .ok .null := by
  have made : (Cell.text "NaN").convert .float = .ok (.float .nan) := rfl
  have relapses : (Cell.text "NaN").Relapses .float :=
    ⟨"NaN", rfl, by decide, by decide +kernel⟩
  exact ⟨made, (convert_twice made).2.1 relapses⟩

/-- The word null relapses in a JSON column. -/
theorem convert_moves :
    (Cell.text "null").convert .json = .ok .null ∧
      Cell.null.convert .json = .ok (.json (.object [])) ∧ Cell.null ≠ .json (.object []) :=
  ⟨rfl, rfl, by intro same; cases same⟩

end Cell

end EventSieve
