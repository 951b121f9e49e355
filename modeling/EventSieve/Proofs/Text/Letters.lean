import EventSieve.Text.Blank
import EventSieve.Text.Letters

/-!
# Small letters and blanks

Lowering changes the capital letters of ASCII and nothing else. What is decided for the
characters of ASCII one by one, and holds of every character with itself, holds of all
characters with their small letters. No letter is blank in either case, so a text is
trimmed at the same places before and after lowering.
-/

namespace EventSieve.Text

/-- What holds of a character and its small letter in ASCII, and of every other
character with itself, holds of all characters with their small letters. -/
theorem lowering (Property : Char → Char → Prop)
    (ascii : ∀ code, code < 128 → Property (Char.ofNat code) (Char.ofNat code).toLower)
    (itself : ∀ character, Property character character) (character : Char) :
    Property character character.toLower := by
  by_cases low : character.toNat < 128
  · have own := ascii character.toNat low
    rwa [Char.ofNat_toNat] at own
  · rw [toLower_of_high (Nat.le_of_not_lt low)]
    exact itself character

/-- A letter is blank in neither case, and any other character is its own small
letter. -/
theorem isBlank_toLower (character : Char) : isBlank character.toLower = isBlank character :=
  lowering (fun character lower => isBlank lower = isBlank character) (by decide) (fun _ => rfl)
    character

/-- A text whose small letters are not blank has no blanks. -/
theorem isBlank_of_lowerChars {text letters : List Char} (lowered : lowerChars text = letters)
    (solid : ∀ letter ∈ letters, isBlank letter = false) :
    ∀ character ∈ text, isBlank character = false := by
  intro character member
  have among : character.toLower ∈ letters := lowered ▸ List.mem_map_of_mem member
  rw [← isBlank_toLower]
  exact solid character.toLower among

/-- The capital letter of a small letter is that of the letter. -/
theorem toUpper_toLower (character : Char) : character.toLower.toUpper = character.toUpper :=
  lowering (fun character lower => lower.toUpper = character.toUpper) (by decide) (fun _ => rfl)
    character

/-- A text is trimmed at the same places before and after lowering. -/
theorem trimChars_lowerChars (text : List Char) :
    trimChars (lowerChars text) = lowerChars (trimChars text) := by
  have front (text : List Char) : trimFront (lowerChars text) = lowerChars (trimFront text) := by
    have same : isBlank ∘ Char.toLower = isBlank := funext isBlank_toLower
    rw [trimFront, lowerChars, List.dropWhile_map, same]
    rfl
  have behind (text : List Char) : (lowerChars text).reverse = lowerChars text.reverse :=
    List.map_reverse.symm
  rw [trimChars, trimChars, trimBack, trimBack, front, behind, front, behind]

end EventSieve.Text
