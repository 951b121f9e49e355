import EventSieve.Proofs.Time.OffsetGrammar
import EventSieve.Proofs.Time.Timestamp

/-!
# Texts of zones are stable

A zone that is read from a text is read from its own text again. A fixed offset is
written behind `UTC` with hours of two digits, so what is written is an offset of the
grammar, and neither the letter Z nor a bare offset starts like it. A zone with a name
is read from this name alone, after every reader of offsets has refused it, and they
refuse it again.

Every fixed offset can be read. A known name that goes on behind `GMT` as an offset does,
such as `GMT+0`, is read as this offset, and no text denotes the zone of such a name.
-/

namespace EventSieve.Time

/-- Two digits behind a colon are a part of an offset. -/
theorem OffsetPart.exists_padded {value : Nat} (below : value < 60) :
    ∃ part : OffsetPart, part.colon = true ∧ part.pair = Text.paddedChars 2 value ∧
      part.value = value := by
  obtain ⟨tens, ones, spelled⟩ :=
    List.length_eq_two.mp (@length_padded 2 value (by decide) (by omega))
  have number : Text.numeralValue [tens, ones] = value := by
    rw [← spelled, Text.numeralValue_paddedChars]
  have digits : ∀ digit ∈ [tens, ones], digit.isDigit = true := by
    rw [← spelled]
    exact fun _ => Text.isDigit_of_mem_paddedChars
  exact ⟨⟨true, tens, ones, digits, number.symm ▸ below⟩, rfl, spelled.symm, number⟩

/-- The minutes and seconds of an offset are one part or two. -/
theorem OffsetPart.exists_parts (size : Nat) :
    ∃ parts : List OffsetPart, parts.length ≤ 2 ∧
      parts.flatMap chars = ':' :: (Text.paddedChars 2 (size / 60 % 60) ++
        if size % 60 = 0 then [] else ':' :: Text.paddedChars 2 (size % 60)) ∧
      WrittenOffset.sixtieths (parts.map value) = size % 3600 := by
  obtain ⟨minutes, colon, pair, value⟩ := @exists_padded (size / 60 % 60) (by omega)
  obtain ⟨seconds, otherColon, otherPair, otherValue⟩ := @exists_padded (size % 60) (by omega)
  by_cases whole : size % 60 = 0
  · refine ⟨[minutes], Nat.le_succ 1, ?_, ?_⟩
    · simp [chars, colon, pair, whole]
    · simp only [List.map_cons, List.map_nil, WrittenOffset.sixtieths, value]
      omega
  · refine ⟨[minutes, seconds], Nat.le_refl 2, ?_, ?_⟩
    · simp [chars, colon, pair, otherColon, otherPair, whole]
    · simp only [List.map_cons, List.map_nil, WrittenOffset.sixtieths, value, otherValue]
      omega

/-- An offset has no blanks. -/
theorem WrittenOffset.isBlank_of_mem_chars {written : WrittenOffset} {character : Char}
    (member : character ∈ written.chars) : Text.isBlank character = false := by
  rcases List.mem_cons.mp member with rfl | inside
  · rw [sign]
    cases written.negative <;> rfl
  · by_cases colon : character = ':'
    · subst colon
      rfl
    · have kept : character ∈ written.body.filter (· ≠ ':') :=
        List.mem_filter.mpr ⟨inside, decide_eq_true colon⟩
      rw [filter_body] at kept
      exact Text.isBlank_of_isDigit ((Text.isNumeral_iff.mp written.isNumeral_digits).2 _ kept)

namespace Zone

/-- The text of a fixed offset is an offset of the grammar, with hours of two digits. -/
theorem exists_written {east : Int} (below : east.natAbs < 86400) :
    ∃ written : WrittenOffset, written.chars = offsetChars east ∧ written.IsPaired ∧
      written.east = east := by
  obtain ⟨parts, few, spelled, value⟩ := OffsetPart.exists_parts east.natAbs
  have width : (Text.paddedChars 2 (east.natAbs / 3600)).length = 2 :=
    length_padded (by decide) (by omega)
  refine ⟨⟨decide (east < 0), Text.paddedChars 2 (east.natAbs / 3600), parts,
    isNumeral_padded (by decide) (by omega), Nat.le_of_eq width, few⟩, ?_, .inl width, ?_⟩
  · simp [WrittenOffset.chars, WrittenOffset.sign, WrittenOffset.body, spelled, offsetChars]
  · simp only [WrittenOffset.east, WrittenOffset.seconds, Text.numeralValue_paddedChars, value,
      decide_eq_true_eq]
    split
    · omega
    · omega

/-- A fixed offset is read from its text. -/
theorem offset?_offsetChars {east : Int} (below : east.natAbs < 86400) :
    offset? (offsetChars east) = some (fixed east below) := by
  obtain ⟨written, spelled, paired, same⟩ := exists_written below
  refine offset?_eq_some_iff.mpr ⟨written, written.body, paired, ?_, spelled.symm,
    written.filter_body⟩
  rw [same]
  exact dif_pos below

/-- Whether a text is read as an offset, so that it is not looked up among the names. -/
def IsOffset (body : List Char) : Prop :=
  body = ['Z'] ∨ (offset? body).isSome = true ∨ (prefixedOffset? body).isSome = true

instance (body : List Char) : Decidable (IsOffset body) :=
  inferInstanceAs (Decidable (_ ∨ _ ∨ _))

section

variable {zone : Zone} {body : List Char}

/-- Behind the letter Z and a sign there are fixed offsets only. -/
theorem exists_of_offset? (read : offset? body = some zone) :
    ∃ east below, zone = fixed east below := by
  obtain ⟨written, _, _, denoted, _⟩ := offset?_eq_some_iff.mp read
  rw [fixed?] at denoted
  split at denoted
  · exact ⟨_, _, (Option.some.inj denoted).symm⟩
  · cases denoted

/-- Behind the names of universal time there are fixed offsets only. -/
theorem exists_of_prefixedOffset? (read : prefixedOffset? body = some zone) :
    ∃ east below, zone = fixed east below := by
  rcases Option.or_eq_some_iff.mp read with first | ⟨_, second⟩
  · obtain ⟨rest, _, own⟩ := Option.bind_eq_some_iff.mp first
    exact exists_of_offset? own
  · obtain ⟨rest, _, own⟩ := Option.bind_eq_some_iff.mp second
    exact exists_of_offset? own

/-- A name is read from itself only. -/
theorem name?_eq_some_iff {name : String} {known : zoneNames.contains name = true} :
    name? body = some (named name known) ↔ String.ofList body = name := by
  rw [name?]
  constructor
  · intro read
    split at read
    · cases read
      rfl
    · cases read
  · rintro rfl
    exact dif_pos known

/-- What is read as an offset denotes a fixed offset. -/
theorem ofText?_of_isOffset {text : String} (inside : IsOffset (Text.trimChars text.toList)) :
    ∃ east below, ofText? text = some (fixed east below) := by
  rw [ofText?]
  generalize Text.trimChars text.toList = body at inside
  by_cases letter : body = ['Z']
  · exact ⟨0, by decide, if_pos letter⟩
  simp only [if_neg letter]
  cases bare : offset? body with
  | some zone =>
    obtain ⟨east, below, rfl⟩ := exists_of_offset? bare
    exact ⟨east, below, rfl⟩
  | none =>
    cases prefixed : prefixedOffset? body with
    | some zone =>
      obtain ⟨east, below, rfl⟩ := exists_of_prefixedOffset? prefixed
      exact ⟨east, below, rfl⟩
    | none => simp [IsOffset, letter, bare, prefixed] at inside

/-- What is not read as an offset is looked up among the names. -/
theorem ofText?_of_not_isOffset {text : String}
    (outside : ¬ IsOffset (Text.trimChars text.toList)) :
    ofText? text = name? (Text.trimChars text.toList) := by
  obtain ⟨letter, others⟩ := not_or.mp outside
  obtain ⟨bare, prefixed⟩ := not_or.mp others
  rw [ofText?]
  simp only [if_neg letter, Option.not_isSome_iff_eq_none.mp bare,
    Option.not_isSome_iff_eq_none.mp prefixed, Option.none_or]

/-- A text denotes a named zone when it is the name, but for blanks around it, and is not
read as an offset. -/
theorem ofText?_eq_named_iff {text name : String} {known : zoneNames.contains name = true} :
    ofText? text = some (named name known) ↔
      Text.trim text = name ∧ ¬ IsOffset name.toList := by
  by_cases inside : IsOffset (Text.trimChars text.toList)
  · obtain ⟨east, below, read⟩ := ofText?_of_isOffset inside
    constructor
    · intro same
      cases read.symm.trans same
    · rintro ⟨rfl, outside⟩
      rw [Text.trim, String.toList_ofList] at outside
      exact absurd inside outside
  · rw [ofText?_of_not_isOffset inside, name?_eq_some_iff]
    refine (and_iff_left_of_imp ?_).symm
    rintro rfl
    rwa [String.toList_ofList]

end

/-- The text of a fixed offset has nothing to trim. -/
theorem trimChars_utc {east : Int} (below : east.natAbs < 86400) :
    Text.trimChars ("UTC".toList ++ offsetChars east) = "UTC".toList ++ offsetChars east := by
  obtain ⟨written, spelled, _, _⟩ := exists_written below
  apply Text.trimChars_of_solid
  intro character member
  rw [← spelled] at member
  rcases List.mem_append.mp member with letter | own
  · have letters : "UTC".toList.all (fun letter => !Text.isBlank letter) = true := by
      decide +kernel
    simpa using List.all_eq_true.mp letters character letter
  · exact written.isBlank_of_mem_chars own

/-- A fixed offset is read from its text. -/
theorem ofText?_text_fixed (east : Int) (below : east.natAbs < 86400) :
    ofText? (fixed east below).text = some (fixed east below) := by
  have behind : prefixedOffset? ("UTC".toList ++ offsetChars east) = some (fixed east below) := by
    rw [prefixedOffset?, Text.dropFront?_append, Option.bind_some, offset?_offsetChars below,
      Option.some_or]
  rw [ofText?, text, String.toList_ofList, trimChars_utc below]
  simp only [behind]
  rfl

/-- A zone that is read from a text is read from its own text, which for a named zone is
what was read, without blanks around it; no reader of offsets takes it.

Proof: the text of a fixed zone is a bare offset with hours and minutes, and with seconds
where there are any, and it is read as the same zone. A named zone is what is left when no
reader of offsets takes the trimmed text, and this is its own text, trimmed already. -/
theorem text_is_stable {text : String} {zone : Zone} (read : ofText? text = some zone) :
    ofText? zone.text = some zone ∧
      ∀ name known, zone = named name known → Text.trim text = name ∧ ¬ IsOffset name.toList := by
  cases zone with
  | fixed east below => exact ⟨ofText?_text_fixed east below, by rintro _ _ ⟨⟩⟩
  | named name known =>
    obtain ⟨rfl, outside⟩ := ofText?_eq_named_iff.mp read
    refine ⟨ofText?_eq_named_iff.mpr ⟨?_, outside⟩, ?_⟩
    · rw [Zone.text, Text.trim, Text.trim, String.toList_ofList, Text.trimChars_trimChars]
    · rintro _ _ ⟨⟩
      exact ⟨rfl, outside⟩

/-- An offset to the west with seconds is read from its text, and a zone from its name that
starts as an offset behind universal time does. -/
theorem text_is_stable_west :
    (∃ zone, ofText? " GMT-073015" = some zone ∧ ofText? zone.text = some zone ∧
      ∀ name known, zone = named name known →
        Text.trim " GMT-073015" = name ∧ ¬ IsOffset name.toList) ∧
    ∃ zone, ofText? "GMT0 " = some zone ∧ ofText? zone.text = some zone ∧
      ∀ name known, zone = named name known → Text.trim "GMT0 " = name ∧ ¬ IsOffset name.toList := by
  have west : ofText? " GMT-073015" = some (fixed (-27015) (by decide)) := by decide +kernel
  have name : ofText? "GMT0 " = some (named "GMT0" (by decide +kernel)) := by decide +kernel
  exact ⟨⟨_, west, text_is_stable west⟩, ⟨_, name, text_is_stable name⟩⟩

example : IsOffset "GMT+0".toList ∧ ofText? "GMT+0" = fixed? 0 := by decide +kernel

end Zone

end EventSieve.Time
