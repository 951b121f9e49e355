import EventSieve.Text.Blank
import EventSieve.Text.Cut

/-!
# Joining and cutting

Texts that are joined by one character come back when the joined text is cut at
it, as long as none of them has the character. The first cut alone needs this of the
text in front of it only. A known back is cut off where it stands, and a text that
neither starts nor ends with a blank has nothing to trim.
-/

namespace EventSieve.Text

/-- A run of characters that pass a test ends where one does not. -/
theorem run_append {test : Char → Bool} {run rest : List Char}
    (all : ∀ character ∈ run, test character)
    (stop : ∀ character ∈ rest.head?, test character = false) :
    (run ++ rest).takeWhile test = run ∧ (run ++ rest).dropWhile test = rest := by
  rw [List.takeWhile_append_of_pos all, List.dropWhile_append_of_pos all]
  cases rest with
  | nil => simp
  | cons first more =>
    have ends : test first = false := stop first rfl
    simp [ends]

/-- A separator of one character leaves nothing to be passed over. -/
theorem piecesAfter_singleton (separator : Char) (text : List Char) :
    piecesAfter [separator] 0 text = pieces separator text := by
  induction text with
  | nil => rfl
  | cons character rest inductionHypothesis =>
    by_cases same : separator = character
    · simp only [piecesAfter, dropFront?, same, if_true, Option.isSome_some, pieces,
        List.length_singleton, Nat.sub_self]
      exact congrArg _ (same ▸ inductionHypothesis)
    · simp only [piecesAfter, dropFront?, same, if_false, Option.isSome_none, Bool.false_eq_true,
        pieces, Ne.symm same, inductionHypothesis]

/-- A piece without the separator ends where the separator stands. -/
theorem pieces_append {separator : Char} {piece : List Char} (absent : separator ∉ piece)
    (rest : List Char) :
    pieces separator (piece ++ separator :: rest) = piece :: pieces separator rest := by
  induction piece with
  | nil => simp [pieces]
  | cons character more inductionHypothesis =>
    obtain ⟨different, later⟩ := not_or.mp (mt List.mem_cons.mpr absent)
    simp [pieces, Ne.symm different, inductionHypothesis later, extendFirst]

/-- Pieces give the text again when the separator is put between them. -/
theorem intercalate_pieces (separator : Char) (text : List Char) :
    [separator].intercalate (pieces separator text) = text := by
  induction text with
  | nil => rfl
  | cons character rest inductionHypothesis =>
    obtain ⟨piece, more, same⟩ := List.exists_cons_of_ne_nil (pieces_ne_nil separator rest)
    rw [same] at inductionHypothesis
    by_cases cut : character = separator
    · rw [pieces, if_pos cut, same, List.intercalate_cons_cons, inductionHypothesis, cut]
      rfl
    · rw [pieces, if_neg cut, same, extendFirst]
      cases more with
      | nil =>
        rw [List.intercalate_singleton] at inductionHypothesis ⊢
        rw [inductionHypothesis]
      | cons next further =>
        rw [List.intercalate_cons_cons] at inductionHypothesis ⊢
        rw [← inductionHypothesis]
        rfl

/-- A joined text has the characters of its parts, and separators. The induction is on the
parts; behind the first one comes a separator and then the others joined. -/
theorem mem_intercalate {separator character : Char} {parts : List (List Char)}
    (member : character ∈ [separator].intercalate parts) :
    character = separator ∨ ∃ part ∈ parts, character ∈ part := by
  induction parts with
  | nil => cases member
  | cons first rest inductionHypothesis =>
    have own (inside : character ∈ first) : character = separator ∨
        ∃ part ∈ first :: rest, character ∈ part := .inr ⟨first, List.mem_cons_self, inside⟩
    cases rest with
    | nil =>
      rw [List.intercalate_singleton] at member
      exact own member
    | cons next more =>
      rw [List.intercalate_cons_cons, List.append_assoc] at member
      rcases List.mem_append.mp member with front | behind
      · exact own front
      · rcases List.mem_cons.mp behind with cut | later
        · exact .inl cut
        · refine (inductionHypothesis later).imp_right ?_
          rintro ⟨part, among, inside⟩
          exact ⟨part, List.mem_cons_of_mem _ among, inside⟩

/-- A piece has characters of the text, and no separator. The induction is on the text. A
separator begins a new piece, and any other character joins the first piece of the rest. -/
theorem mem_of_mem_pieces {separator : Char} {text piece : List Char}
    (among : piece ∈ pieces separator text) {character : Char} (inside : character ∈ piece) :
    character ∈ text ∧ character ≠ separator := by
  induction text generalizing piece with
  | nil =>
    rw [List.mem_singleton.mp among] at inside
    cases inside
  | cons first rest inductionHypothesis =>
    have later {other : List Char} (member : other ∈ pieces separator rest)
        (own : character ∈ other) : character ∈ first :: rest ∧ character ≠ separator :=
      (inductionHypothesis member own).imp_left (List.mem_cons_of_mem first)
    by_cases cut : first = separator
    · rw [pieces, if_pos cut] at among
      rcases List.mem_cons.mp among with rfl | further
      · cases inside
      · exact later further inside
    · rw [pieces, if_neg cut] at among
      obtain ⟨front, more, same⟩ := List.exists_cons_of_ne_nil (pieces_ne_nil separator rest)
      rw [same] at later
      rw [same, extendFirst] at among
      rcases List.mem_cons.mp among with rfl | further
      · rcases List.mem_cons.mp inside with rfl | own
        · exact ⟨List.mem_cons_self, cut⟩
        · exact later List.mem_cons_self own
      · exact later (List.mem_cons_of_mem front further) inside

/-- Joined texts without the separator are cut apart again. -/
theorem pieces_intercalate {separator : Char} {first : List Char} {rest : List (List Char)}
    (absent : ∀ piece ∈ first :: rest, separator ∉ piece) :
    pieces separator ([separator].intercalate (first :: rest)) = first :: rest := by
  induction rest generalizing first with
  | nil =>
    rw [List.intercalate_singleton]
    exact pieces_of_not_mem (absent first List.mem_cons_self)
  | cons next more inductionHypothesis =>
    obtain ⟨own, later⟩ := List.forall_mem_cons.mp absent
    rw [List.intercalate_cons_cons, List.append_assoc, List.singleton_append, pieces_append own,
      inductionHypothesis later]

/-- Joined texts without the separator are the pieces of the joined text. -/
theorem piecesOf_intercalate {separator : Char} {texts : List String} (present : texts ≠ [])
    (absent : ∀ text ∈ texts, separator ∉ text.toList) :
    piecesOf [separator] ((String.singleton separator).intercalate texts).toList =
      texts.map String.toList := by
  obtain ⟨first, rest, rfl⟩ := List.exists_cons_of_ne_nil present
  rw [piecesOf_eq (List.cons_ne_nil _ _), piecesAfter_singleton, String.toList_intercalate,
    String.toList_singleton, List.map_cons]
  apply pieces_intercalate
  rw [← List.map_cons]
  exact List.forall_mem_map.mpr absent

/-- A text is cut where a character stands for the first time. -/
theorem cutAt?_append {separator : Char} {front : List Char} (absent : separator ∉ front)
    (rest : List Char) : cutAt? separator (front ++ separator :: rest) = some (front, rest) := by
  induction front with
  | nil => simp [cutAt?]
  | cons character more inductionHypothesis =>
    obtain ⟨different, later⟩ := not_or.mp (mt List.mem_cons.mpr absent)
    simp [cutAt?, Ne.symm different, inductionHypothesis later]

/-- A text without a character is not cut at it. -/
theorem cutAt?_of_not_mem {separator : Char} {text : List Char} (absent : separator ∉ text) :
    cutAt? separator text = none := by
  induction text with
  | nil => rfl
  | cons character rest inductionHypothesis =>
    obtain ⟨different, later⟩ := not_or.mp (mt List.mem_cons.mpr absent)
    simp [cutAt?, Ne.symm different, inductionHypothesis later]

/-- A back is cut off where it stands. -/
theorem dropBack?_append (front back : List Char) : dropBack? back (front ++ back) = some front := by
  rw [dropBack?, List.reverse_append, dropFront?_append, Option.map_some, List.reverse_reverse]

/-- A text that starts and ends with no blank has nothing to trim. -/
theorem trimChars_of_ends {text : List Char} (starts : ∀ first ∈ text.head?, isBlank first = false)
    (stops : ∀ last ∈ text.getLast?, isBlank last = false) : trimChars text = text := by
  have front (other : List Char) (solid : ∀ first ∈ other.head?, isBlank first = false) :
      trimFront other = other := by
    cases other with
    | nil => rfl
    | cons first rest => exact List.dropWhile_cons_of_neg (by simp [solid first rfl])
  have back : trimFront text.reverse = text.reverse := by
    apply front
    rw [List.head?_reverse]
    exact stops
  rw [trimChars, front text starts, trimBack, back, List.reverse_reverse]

end EventSieve.Text
