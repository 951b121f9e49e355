import EventSieve.Proofs.Text.Letters
import EventSieve.Record.Event

/-!
# Texts that name the source of an event

A text with the letters of the name of a source, in either case, names that source.
It has no blanks and stands for a value, so a column of texts keeps it, and an
enumeration finds for it what it finds for the name itself: a variant with the same
letters, or nothing. Whatever such a column makes of the name of a source names the
same source again.
-/

namespace EventSieve

namespace EventSource

/-- Whether a text has the letters of the name of a source, in either case. -/
def NamedBy (source : EventSource) (text : String) : Prop :=
  Text.lowerChars text.toList = Text.lowerChars source.name.toList

section

variable {source : EventSource} {text : String}

/-- A source is named by its name. -/
theorem namedBy_name (source : EventSource) : source.NamedBy source.name := rfl

/-- A text that names a source has nothing to trim. -/
theorem NamedBy.trimChars_eq (named : source.NamedBy text) :
    Text.trimChars text.toList = text.toList := by
  have letters : (Text.lowerChars source.name.toList).all
      (fun character => !Text.isBlank character) = true := by
    cases source <;> decide
  apply Text.trimChars_of_solid
  apply Text.isBlank_of_lowerChars named
  intro letter member
  have solid := List.all_eq_true.mp letters letter member
  simpa using solid

/-- A text that names a source is read as that source. -/
theorem NamedBy.ofText?_eq (named : source.NamedBy text) : ofText? text = some source := by
  have raise (other : List Char) :
      other.map Char.toUpper = (Text.lowerChars other).map Char.toUpper := by
    rw [Text.lowerChars, List.map_map]
    apply List.map_congr_left
    intro character _
    exact (Text.toUpper_toLower character).symm
  have own : Text.trimChars source.name.toList = source.name.toList :=
    (namedBy_name source).trimChars_eq
  have word : lookupWord text = lookupWord source.name := by
    rw [lookupWord, lookupWord, named.trimChars_eq, own, raise, named, ← raise]
  rw [ofText?, word]
  exact ofText?_name source

/-- A text that names a source stands for a value. -/
theorem NamedBy.isNullLike_eq (named : source.NamedBy text) :
    (Cell.text text).isNullLike = false := by
  have letters : ∀ word ∈ Cell.emptyWords,
      Text.lowerChars word.toList ≠ Text.lowerChars source.name.toList := by
    cases source <;> decide
  rw [Cell.isNullLike, Bool.eq_false_iff]
  intro empty
  exact letters text (List.contains_iff_mem.mp empty) named

/-- A column of texts or of an enumeration makes of a text that names a source another one,
or nothing. A name of a source is not like null and has no blanks around it. An enumeration
chooses a variant with the same letters, whatever their case. -/
theorem NamedBy.convert (named : source.NamedBy text) {type : ColumnType}
    (takes : type = .str ∨ ∃ variants, type = .enum variants) {converted : Cell}
    (made : (Cell.text text).convert type = .ok converted) :
    ∃ word, converted = .text word ∧ source.NamedBy word := by
  have other : (type = .json && (Cell.text text).isEmptyObject) = false := by
    rcases takes with rfl | ⟨variants, rfl⟩ <;> rfl
  simp only [Cell.convert, other, named.isNullLike_eq, Bool.false_eq_true, if_false] at made
  rcases takes with rfl | ⟨variants, rfl⟩
  · cases made
    exact ⟨text, rfl, named⟩
  · have word : Text.trim text = text := by rw [Text.trim, named.trimChars_eq, String.ofList_toList]
    simp only [Cell.toType?, Cell.toVariant?, Cell.display, word] at made
    cases empty : variants.isEmpty with
    | true =>
      rw [empty] at made
      cases made
      exact ⟨text, rfl, named⟩
    | false =>
      rw [empty] at made
      cases chosen : variants.find? fun variant => Text.sameLetters variant text with
      | none =>
        rw [chosen] at made
        cases made
      | some variant =>
        rw [chosen] at made
        cases made
        have letters := List.find?_some chosen
        exact ⟨variant, rfl, ((Text.sameLetters_iff variant text).mp letters).trans named⟩

end

end EventSource

end EventSieve
