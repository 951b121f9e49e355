import EventSieve.Text.Fingerprint

/-!
# Cutting texts at a separator

A text is cut at the first separator, at every separator, or by a known front
or back. Cutting at every separator gives one piece more than there are
separators, so the empty text is one empty piece.

Where a long separator may stand is found out by fingerprints first, so that it is
compared with the text only there; `piecesOf_eq` says that nothing is missed.
-/

namespace EventSieve.Text

/-- The text without a given front, when it starts with that front. -/
def dropFront? (front : List Char) (text : List Char) : Option (List Char) :=
  match front, text with
  | [], rest => some rest
  | expected :: front, actual :: rest =>
    if expected = actual then dropFront? front rest else none
  | _ :: _, [] => none

/-- The text without a given back, when it ends with that back. -/
def dropBack? (back : List Char) (text : List Char) : Option (List Char) :=
  (dropFront? back.reverse text.reverse).map List.reverse

/-- The parts before and after the first occurrence of a character. -/
def cutAt? (separator : Char) : List Char → Option (List Char × List Char)
  | [] => none
  | character :: rest =>
    if character = separator then some ([], rest)
    else (cutAt? separator rest).map fun parts => (character :: parts.1, parts.2)

/-- Puts a character in front of the first piece. -/
def extendFirst (character : Char) : List (List Char) → List (List Char)
  | [] => [[character]]
  | piece :: more => (character :: piece) :: more

/-- The pieces between the occurrences of a character; never an empty list. -/
def pieces (separator : Char) : List Char → List (List Char)
  | [] => [[]]
  | character :: rest =>
    if character = separator then [] :: pieces separator rest
    else extendFirst character (pieces separator rest)

/-- The pieces between the occurrences of a separator that is not empty. The
number says how many characters of a separator already found are still to be
passed over, so occurrences never overlap. -/
def piecesAfter (separator : List Char) : Nat → List Char → List (List Char)
  | _, [] => [[]]
  | passing + 1, _ :: rest => piecesAfter separator passing rest
  | 0, character :: rest =>
    if (dropFront? separator (character :: rest)).isSome then
      [] :: piecesAfter separator (separator.length - 1) rest
    else extendFirst character (piecesAfter separator 0 rest)

/-- The same pieces, with marks that say where the separator may stand. Other
places are not compared with it. -/
def piecesMarked (separator : List Char) : Nat → List Bool → List Char → List (List Char)
  | _, _, [] => [[]]
  | passing + 1, marks, _ :: rest => piecesMarked separator passing marks.tail rest
  | 0, marks, character :: rest =>
    if marks.headD false && (dropFront? separator (character :: rest)).isSome then
      [] :: piecesMarked separator (separator.length - 1) marks.tail rest
    else extendFirst character (piecesMarked separator 0 marks.tail rest)

/-- The pieces between the occurrences of a separator, found from left to right
without overlap. The empty separator stands at every boundary between
characters and at both ends, so it also gives an empty first and last piece. -/
def piecesOf (separator text : List Char) : List (List Char) :=
  if separator.isEmpty then [[]] ++ text.map (fun character => [character]) ++ [[]]
  else piecesMarked separator 0 (mayStart separator text) text

/-- Removing a front and putting it back gives the text again. -/
theorem eq_append_of_dropFront? {front text rest : List Char}
    (dropped : dropFront? front text = some rest) : text = front ++ rest := by
  induction front generalizing text with
  | nil => simpa [dropFront?] using dropped
  | cons expected front inductionHypothesis =>
    cases text with
    | nil => simp [dropFront?] at dropped
    | cons actual remaining =>
      by_cases same : expected = actual
      · simp only [dropFront?, same, if_true] at dropped
        simp [same, inductionHypothesis dropped]
      · simp [dropFront?, same] at dropped

/-- A front is always found where it stands. -/
theorem dropFront?_append (front rest : List Char) :
    dropFront? front (front ++ rest) = some rest := by
  induction front with
  | nil => rfl
  | cons character front inductionHypothesis =>
    simpa [dropFront?] using inductionHypothesis

/-- Marks that miss no occurrence do not change the pieces. Where the separator stands it is
marked, so the mark is asked first and the text is compared only where there is one. -/
theorem piecesMarked_eq {separator text : List Char} {marks : List Bool} (passing : Nat)
    (complete : ∀ place, separator <+: text.drop place → marks[place]? = some true) :
    piecesMarked separator passing marks text = piecesAfter separator passing text := by
  induction text generalizing passing marks with
  | nil => cases passing <;> rfl
  | cons character rest inductionHypothesis =>
    have later : ∀ place, separator <+: rest.drop place → marks.tail[place]? = some true :=
      fun place stands => by rw [List.getElem?_tail]; exact complete (place + 1) stands
    cases passing with
    | succ passing => exact inductionHypothesis passing later
    | zero =>
      have marked : (dropFront? separator (character :: rest)).isSome = true →
          marks.headD false = true := by
        intro found
        obtain ⟨remaining, dropped⟩ := Option.isSome_iff_exists.mp found
        have stands := complete 0 ⟨remaining, (eq_append_of_dropFront? dropped).symm⟩
        cases marks <;> simp_all
      simp only [piecesMarked, piecesAfter, inductionHypothesis _ later]
      by_cases found : (dropFront? separator (character :: rest)).isSome = true
      · rw [found, marked found, Bool.and_self]
      · rw [Bool.eq_false_iff.mpr found, Bool.and_false]

/-- Cutting at a separator that is not empty compares it with the text at every place. -/
theorem piecesOf_eq {separator : List Char} (present : separator ≠ []) (text : List Char) :
    piecesOf separator text = piecesAfter separator 0 text := by
  have positive : 0 < separator.length := List.length_pos_iff.mpr present
  rw [piecesOf, if_neg (by simpa using present)]
  exact piecesMarked_eq 0 fun _ stands => mayStart_of_prefix positive stands

/-- Cutting at every separator never gives an empty list of pieces. -/
theorem pieces_ne_nil (separator : Char) (text : List Char) : pieces separator text ≠ [] := by
  induction text with
  | nil => simp [pieces]
  | cons character rest inductionHypothesis =>
    by_cases same : character = separator
    · simp [pieces, same]
    · simp only [pieces, same, if_false]
      cases pieces separator rest <;> simp [extendFirst]

/-- A text without the separator is its only piece. -/
theorem pieces_of_not_mem {separator : Char} {text : List Char} (absent : separator ∉ text) :
    pieces separator text = [text] := by
  induction text with
  | nil => rfl
  | cons character rest inductionHypothesis =>
    simp only [List.mem_cons, not_or] at absent
    simp [pieces, Ne.symm absent.1, inductionHypothesis absent.2, extendFirst]

example : pieces ',' ['a', ',', ',', 'b'] = [['a'], [], ['b']] := by decide

example : piecesOf ['a', 'a'] ['a', 'a', 'a'] = [[], ['a']] := by decide

example : piecesOf [] ['a', 'b'] = [[], ['a'], ['b'], []] := by decide

end EventSieve.Text
