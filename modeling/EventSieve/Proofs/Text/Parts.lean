import Mathlib.Data.List.TakeWhile
import EventSieve.Proofs.Text.Letters
import EventSieve.Proofs.Text.Pieces
import EventSieve.Text.Bytes

/-!
# Parts of a text

A trimmed text is the part between the blanks at both ends, and it is empty or starts and
ends with other characters. A part may also be given by the numbers of bytes in front of its
start and of its end. Offsets that are counted in another text have to be shown to fall
between characters. The small letters of a text take as many bytes as its letters do, so
offsets that are counted among them do.
-/

namespace EventSieve.Text

/-- Whether a text starts and ends with characters that are not blank. -/
structure IsSolidEnded (text : List Char) : Prop where
  present : text ≠ []
  starts : ∀ first ∈ text.head?, isBlank first = false
  stops : ∀ last ∈ text.getLast?, isBlank last = false

/-- A text that starts and ends with other characters than blanks has nothing to trim. -/
theorem IsSolidEnded.trimmed {text : List Char} (solid : IsSolidEnded text) :
    trimChars text = text :=
  trimChars_of_ends solid.starts solid.stops

/-- Removing a back and putting it back gives the text again. -/
theorem eq_append_of_dropBack? {back text rest : List Char}
    (dropped : dropBack? back text = some rest) : text = rest ++ back := by
  obtain ⟨front, found, rfl⟩ := Option.map_eq_some_iff.mp dropped
  have whole := congrArg List.reverse (eq_append_of_dropFront? found)
  rwa [List.reverse_reverse, List.reverse_append, List.reverse_reverse] at whole

/-- What is left of a text without its front blanks starts with no blank. -/
theorem isBlank_head_trimFront (text : List Char) :
    ∀ first ∈ (trimFront text).head?, isBlank first = false := by
  intro first member
  have stopped := List.head?_dropWhile_not isBlank text
  rw [trimFront] at member
  rwa [Option.mem_def.mp member] at stopped

/-- A trimmed text is what is left between blanks. -/
theorem exists_trimChars_append (text : List Char) :
    ∃ front back, text = front ++ trimChars text ++ back ∧
      (∀ character ∈ front, isBlank character = true) ∧
      ∀ character ∈ back, isBlank character = true := by
  refine ⟨text.takeWhile isBlank, ((trimFront text).reverse.takeWhile isBlank).reverse, ?_,
    fun _ member => List.mem_takeWhile_imp member,
    fun _ member => List.mem_takeWhile_imp (List.mem_reverse.mp member)⟩
  have behind : trimFront text =
      trimChars text ++ ((trimFront text).reverse.takeWhile isBlank).reverse := by
    have whole : (trimFront text).reverse.takeWhile isBlank ++ trimFront (trimFront text).reverse =
        (trimFront text).reverse := List.takeWhile_append_dropWhile
    rw [trimChars, trimBack, ← List.reverse_append, whole, List.reverse_reverse]
  rw [List.append_assoc, ← behind]
  exact List.takeWhile_append_dropWhile.symm

/-- What is left of a text when it has been trimmed starts and ends with no blank. -/
theorem isSolidEnded_trimChars {text : List Char} (present : trimChars text ≠ []) :
    IsSolidEnded (trimChars text) where
  present := present
  starts := by
    have fixed : trimFront (trimChars text) = trimChars text :=
      trimFront_trimBack (trimFront_trimFront text)
    exact fixed ▸ isBlank_head_trimFront (trimChars text)
  stops := by
    rw [trimChars, trimBack, List.getLast?_reverse]
    exact isBlank_head_trimFront _

/-- A small letter takes as many bytes as the letter. -/
theorem utf8Size_toLower (character : Char) : character.toLower.utf8Size = character.utf8Size :=
  lowering (fun character lower => lower.utf8Size = character.utf8Size) (by decide) (fun _ => rfl)
    character

/-- The small letters of a text take as many bytes as the text. -/
theorem size_lowerChars (text : List Char) : size (lowerChars text) = size text := by
  induction text with
  | nil => rfl
  | cons character rest inductionHypothesis =>
    have own : lowerChars (character :: rest) = character.toLower :: lowerChars rest := rfl
    rw [own, size_cons, size_cons, utf8Size_toLower, inductionHypothesis]

end EventSieve.Text
