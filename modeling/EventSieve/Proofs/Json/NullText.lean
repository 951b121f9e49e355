import EventSieve.Json.Document
import Mathlib.Data.List.TakeWhile

/-!
# Texts that spell JSON null

A text is read as JSON null when it is the word `null` with blanks around it, and no other
text is. For the value null is the only one without parts: a tree whose root is null was
finished with its first token, because a container that has been opened stays the root or
lies around it.
-/

namespace EventSieve.Json

/-- Whether a text is the word for null with blanks around it. -/
def SpellsNull (text : List Char) : Prop :=
  ∃ front back, text = front ++ "null".toList ++ back ∧
    (∀ character ∈ front, isSpace character = true) ∧ ∀ character ∈ back, isSpace character = true

/-- Whether a step leaves a container open, ends in a container, or is a fault. -/
inductive Step.IsContained : Step → Prop where
  | next (place : Place) {containers : List Container} (opened : containers ≠ []) :
      IsContained (.next place containers)
  | list (items : List Document) (closed : Bool) : IsContained (.complete (.list items closed))
  | object (members : List (Option String × Document)) (closed : Bool) :
      IsContained (.complete (.object members closed))
  | fault : IsContained .fault

section

variable {containers : List Container}

/-- A value that is put into a container leaves it open. -/
theorem isContained_settle (value : Document) (opened : containers ≠ []) :
    (settle value containers).IsContained := by
  cases containers with
  | nil => exact absurd rfl opened
  | cons container outer =>
    cases container with
    | list items => exact .next _ (List.cons_ne_nil _ _)
    | object members => exact .fault
    | member members key => exact .next _ (List.cons_ne_nil _ _)

/-- A container that ends is the root or is put into a container. -/
theorem isContained_endContainer (containers : List Container) (token : Token) :
    (endContainer containers token).IsContained := by
  unfold endContainer
  split
  · rename_i items outer
    cases outer with
    | nil => exact .list _ _
    | cons => exact isContained_settle _ (List.cons_ne_nil _ _)
  · rename_i members outer
    cases outer with
    | nil => exact .object _ _
    | cons => exact isContained_settle _ (List.cons_ne_nil _ _)
  · exact .fault

/-- A value that begins inside of a container leaves one open. -/
theorem isContained_beginValue (token : Token) (opened : containers ≠ []) :
    (beginValue containers token).IsContained := by
  cases token with
  | null | boolean | number | text => exact isContained_settle _ opened
  | openList | openObject => exact .next _ (List.cons_ne_nil _ _)
  | closeList | closeObject | comma | colon | broken => exact .fault

/-- A key leaves its object open. -/
theorem isContained_beginKey (containers : List Container) (token : Token) :
    (beginKey containers token).IsContained := by
  unfold beginKey
  split
  · exact .next _ (List.cons_ne_nil _ _)
  · exact .fault

/-- No token takes the root away from an open container. By the places in which a token may
come: each of them begins a value, begins a key, ends the container on top or is a fault,
and none of these leaves a root alone while a container is open. -/
theorem isContained_step (place : Place) (token : Token) (opened : containers ≠ []) :
    (step containers place token).IsContained := by
  cases place with
  | value => exact isContained_beginValue token opened
  | key => exact isContained_beginKey containers token
  | valueOrEnd =>
    rw [step]
    split
    · exact isContained_endContainer containers token
    · exact isContained_beginValue token opened
  | keyOrEnd =>
    rw [step]
    split
    · exact isContained_endContainer containers token
    · exact isContained_beginKey containers token
  | colon =>
    rw [step]
    split
    · exact .next _ opened
    · exact .fault
  | separator =>
    unfold step
    simp only
    split
    · split
      · exact .next _ opened
      · exact .next _ opened
      · exact .fault
    · exact isContained_endContainer containers token

/-- Containers that are never closed are around whatever is inside of them. -/
theorem foldl_unclosed_ne_null (opened : containers ≠ []) :
    containers.foldl (fun inner container => some (unclosed inner container)) none ≠
      some .null := by
  obtain ⟨inner, outermost, rfl⟩ := (List.eq_nil_or_concat containers).resolve_left opened
  rw [List.concat_eq_append, List.foldl_append, List.foldl_cons, List.foldl_nil]
  cases outermost <;> simp [unclosed]

/-- A text in an open container does not spell null. -/
theorem root_build_ne_null (opened : containers ≠ []) (place : Place) (tokens : List Token) :
    (build containers place tokens).root ≠ some .null := by
  -- Every step leaves a container open, ends the text in one, or closes those that are open.
  induction tokens generalizing containers place with
  | nil => exact foldl_unclosed_ne_null opened
  | cons token rest inductionHypothesis =>
    have contained := isContained_step place token opened
    rw [build]
    generalize step containers place token = next at contained
    cases contained with
    | next place opened => exact inductionHypothesis opened place
    | list items closed => simp
    | object members closed => simp
    | fault => exact foldl_unclosed_ne_null opened

end

/-- Tokens spell null when there is one of them, the word for it. -/
theorem build_eq_null_iff {tokens : List Token} :
    build [] .value tokens = ⟨some .null, true⟩ ↔ tokens = [.null] := by
  constructor
  · intro built
    cases tokens with
    | nil => cases built
    | cons token rest =>
      have root := congrArg Source.root built
      cases token with
      | null =>
        have ended : rest.isEmpty = true := congrArg Source.ended built
        rw [List.isEmpty_iff.mp ended]
      | openList | openObject => exact absurd root (root_build_ne_null (List.cons_ne_nil _ _) _ _)
      | boolean | number | text | closeList | closeObject | comma | colon | broken => cases root
  · rintro rfl
    rfl

/-- Only the tree of null has the value null. -/
theorem value?_eq_null_iff {depth : Nat} {document : Document} :
    document.value? depth = some .null ↔ document = .null := by
  constructor
  · intro value
    cases document with
    | null => rfl
    | boolean => cases value
    | number | text =>
      obtain ⟨_, _, other⟩ := Option.map_eq_some_iff.mp value
      cases other
    | list | object =>
      rw [Document.value?] at value
      split at value
      · obtain ⟨_, _, other⟩ := Option.map_eq_some_iff.mp value
        cases other
      · cases value
  · rintro rfl
    rfl

/-- A text is read as null when its only token is the word for it. -/
theorem read?_eq_null_iff_tokens {text : String} :
    read? text = some .null ↔ tokens text = [.null] := by
  rw [← build_eq_null_iff, read?, Source.ofText]
  generalize build [] .value (tokens text) = source
  obtain ⟨root, ended⟩ := source
  constructor
  · intro value
    split at value
    · rename_i same
      cases same
      rw [value?_eq_null_iff.mp value]
    · cases value
  · rintro ⟨⟩
    rfl

/-- What is scanned as a number is one. The scanner goes through sign, digits, fraction and
exponent, and fails at a part that has no digits; wherever it ends, it has put together a
spelling of a number. -/
theorem exists_number_of_scanNumber {text rest : List Char} {token : Token}
    (scanned : scanNumber text = some (token, rest)) : ∃ spelling, token = .number spelling := by
  revert scanned
  unfold scanNumber
  extract_lets negative body whole afterWhole
  split
  · rintro ⟨⟩
  · split
    · rintro ⟨⟩
    · rename_i hasFraction fraction afterFraction _ _
      clear_value afterFraction
      cases afterFraction with
      | nil =>
        rintro ⟨⟩
        exact ⟨_, rfl⟩
      | cons mark after =>
        simp only
        split
        · intro scanned
          obtain ⟨_, _, same⟩ := Option.map_eq_some_iff.mp scanned
          cases same
          exact ⟨_, rfl⟩
        · rintro ⟨⟩
          exact ⟨_, rfl⟩

/-- Only the word for it is scanned as null. -/
theorem scanToken_eq_null_iff {text rest : List Char} :
    scanToken text = some (.null, rest) ↔ text = "null".toList ++ rest := by
  constructor
  · intro scanned
    unfold scanToken at scanned
    split at scanned
    case h_7 =>
      cases scanned
      rfl
    case h_10 =>
      obtain ⟨_, _, other⟩ := Option.map_eq_some_iff.mp scanned
      cases other
    case h_11 =>
      obtain ⟨_, other⟩ := exists_number_of_scanNumber scanned
      cases other
    all_goals cases scanned
  · rintro rfl
    rfl

section

variable {fuel : Nat} {found : List Token} {text rest : List Char}

/-- A text with blanks only has no further tokens. -/
theorem scan_of_blank (blank : text.dropWhile isSpace = []) :
    scan fuel found text = found.reverse := by
  unfold scan
  rw [blank]

/-- A token behind blanks is found, and the text behind it is scanned. -/
theorem scan_of_scanToken {token : Token} (present : text.dropWhile isSpace ≠ [])
    (scanned : scanToken (text.dropWhile isSpace) = some (token, rest)) :
    scan (fuel + 1) found text = scan fuel (token :: found) rest := by
  rw [scan]
  split
  · exact absurd ‹_› present
  · rw [scanned]

/-- Where no token can stand the scan ends. -/
theorem scan_of_broken (present : text.dropWhile isSpace ≠ [])
    (broken : fuel = 0 ∨ scanToken (text.dropWhile isSpace) = none) :
    scan fuel found text = (.broken :: found).reverse := by
  unfold scan
  split
  · exact absurd ‹_› present
  · split
    · rename_i scanned
      rcases broken with ⟨⟨⟩⟩ | broken
      cases broken.symm.trans scanned
    · rfl

/-- A text has blanks only, starts with a token behind them, or is broken there. -/
theorem scan_cases (fuel : Nat) (text : List Char) :
    text.dropWhile isSpace = [] ∨ text.dropWhile isSpace ≠ [] ∧
      ((fuel = 0 ∨ scanToken (text.dropWhile isSpace) = none) ∨
        ∃ less token rest, fuel = less + 1 ∧
          scanToken (text.dropWhile isSpace) = some (token, rest)) := by
  by_cases blank : text.dropWhile isSpace = []
  · exact .inl blank
  · refine .inr ⟨blank, ?_⟩
    cases fuel with
    | zero => exact .inl (.inl rfl)
    | succ less =>
      cases scanned : scanToken (text.dropWhile isSpace) with
      | none => exact .inl (.inr rfl)
      | some found => exact .inr ⟨less, found.1, found.2, rfl, rfl⟩

/-- The tokens found so far stand in front of the others. -/
theorem scan_append (fuel : Nat) (found : List Token) (text : List Char) :
    scan fuel found text = found.reverse ++ scan fuel [] text := by
  induction fuel generalizing found text with
  | zero =>
    rcases scan_cases 0 text with blank | ⟨present, broken | ⟨_, _, _, ⟨⟩, _⟩⟩
    · rw [scan_of_blank blank, scan_of_blank blank, List.reverse_nil, List.append_nil]
    · rw [scan_of_broken present broken, scan_of_broken present broken, List.reverse_cons]
      rfl
  | succ fuel inductionHypothesis =>
    rcases scan_cases (fuel + 1) text with blank | ⟨present, broken | ⟨_, token, rest, ⟨⟩, scanned⟩⟩
    · rw [scan_of_blank blank, scan_of_blank blank, List.reverse_nil, List.append_nil]
    · rw [scan_of_broken present broken, scan_of_broken present broken, List.reverse_cons]
      rfl
    · rw [scan_of_scanToken present scanned, scan_of_scanToken present scanned,
        inductionHypothesis, inductionHypothesis [token], List.reverse_cons, List.append_assoc,
        List.reverse_singleton]

/-- A scan finds nothing in blanks only. -/
theorem scan_eq_nil_iff : scan fuel [] text = [] ↔ text.dropWhile isSpace = [] := by
  constructor
  · intro none
    rcases scan_cases fuel text with blank | ⟨present, broken | ⟨_, _, _, rfl, scanned⟩⟩
    · exact blank
    · rw [scan_of_broken present broken] at none
      cases none
    · rw [scan_of_scanToken present scanned, scan_append] at none
      cases none
  · exact scan_of_blank

/-- A scan finds null alone when the text is the word for it with blanks around it. A text
without tokens is blank, and one that cannot be scanned ends with a mark for it; so the one
token is at the front behind blanks, and there are only blanks behind it. -/
theorem scan_eq_null_iff (enough : text.length ≤ fuel) :
    scan fuel [] text = [.null] ↔ SpellsNull text := by
  constructor
  · intro found
    rcases scan_cases fuel text with blank | ⟨present, broken | ⟨less, token, rest, rfl, scanned⟩⟩
    · rw [scan_of_blank blank] at found
      cases found
    · rw [scan_of_broken present broken] at found
      cases found
    · rw [scan_of_scanToken present scanned, scan_append] at found
      obtain ⟨rfl, none⟩ := List.cons.inj found
      refine ⟨text.takeWhile isSpace, rest, ?_, fun _ => List.mem_takeWhile_imp,
        List.dropWhile_eq_nil_iff.mp (scan_eq_nil_iff.mp none)⟩
      rw [List.append_assoc, ← scanToken_eq_null_iff.mp scanned, List.takeWhile_append_dropWhile]
  · rintro ⟨front, back, rfl, frontBlank, backBlank⟩
    have body : (front ++ "null".toList ++ back).dropWhile isSpace = "null".toList ++ back := by
      rw [List.append_assoc, List.dropWhile_append_of_pos frontBlank]
      rfl
    cases fuel with
    | zero => simp at enough
    | succ fuel =>
      rw [scan_of_scanToken (body ▸ List.cons_ne_nil _ _)
        (body ▸ scanToken_eq_null_iff.mpr rfl), scan_append,
        scan_eq_nil_iff.mpr (List.dropWhile_eq_nil_iff.mpr backBlank)]
      rfl

end

/-- A text is read as null when it is the word for it with blanks around it. -/
theorem read?_eq_null_iff {text : String} : read? text = some .null ↔ SpellsNull text.toList := by
  rw [read?_eq_null_iff_tokens, tokens]
  exact scan_eq_null_iff (Nat.le_refl _)

end EventSieve.Json
