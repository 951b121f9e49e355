import EventSieve.Proofs.Text.Pieces
import Mathlib.Data.List.Infix

/-!
# Separators that keep joined texts apart

A joined text that is cut into as many pieces as were joined need not be cut where it
was joined: the back of a text and the front of the separator behind it may make up a
separator of their own. This is only so when some part of the separator both starts and
ends it. Without such a border every separator that was put between two texts is found,
so equally many pieces are the texts themselves.

With a border, two texts can be given whose joined text is cut elsewhere, and so can
three texts for the empty separator, which stands between all characters. A text on its
own is not cut at all when it is one piece, and two texts that the empty separator cuts
into two pieces are empty.
-/

namespace EventSieve.Text

/-- Whether no part of a separator but the whole of it both starts and ends it. -/
def IsUnbordered (separator : List Char) : Prop :=
  separator ≠ [] ∧ ∀ size < separator.length, 0 < size →
    separator.take size ≠ separator.drop (separator.length - size)

/-- Whether it is decided by counting the pieces of a joined text that they are the texts
that were joined, so many of them as are given. -/
def JoinsApart (separator : List Char) (count : Nat) : Prop :=
  IsUnbordered separator ∨ count ≤ 1 ∨ (separator = [] ∧ count = 2)

instance (separator : List Char) : Decidable (IsUnbordered separator) :=
  inferInstanceAs (Decidable (_ ∧ _))

instance (separator : List Char) (count : Nat) : Decidable (JoinsApart separator count) :=
  inferInstanceAs (Decidable (_ ∨ _))

/-- A front is found exactly where a text starts with it. -/
theorem isSome_dropFront?_iff {front text : List Char} :
    (dropFront? front text).isSome = true ↔ front <+: text := by
  constructor
  · intro found
    obtain ⟨rest, dropped⟩ := Option.isSome_iff_exists.mp found
    exact ⟨rest, (eq_append_of_dropFront? dropped).symm⟩
  · rintro ⟨rest, rfl⟩
    rw [dropFront?_append]
    rfl

section

variable {separator : List Char}

/-- What is still to be passed over does not matter to the pieces behind it. -/
theorem piecesAfter_length (passed rest : List Char) :
    piecesAfter separator passed.length (passed ++ rest) = piecesAfter separator 0 rest := by
  induction passed with
  | nil => rfl
  | cons _ _ inductionHypothesis => exact inductionHypothesis

/-- A text is cut where it starts with the separator. -/
theorem piecesAfter_cut (present : separator ≠ []) (rest : List Char) :
    piecesAfter separator 0 (separator ++ rest) = [] :: piecesAfter separator 0 rest := by
  obtain ⟨character, more, rfl⟩ := List.exists_cons_of_ne_nil present
  have found : (dropFront? (character :: more) (character :: (more ++ rest))).isSome = true :=
    isSome_dropFront?_iff.mpr ⟨rest, rfl⟩
  rw [List.cons_append, piecesAfter, if_pos found]
  exact congrArg _ (piecesAfter_length more rest)

/-- A text that does not start with the separator keeps its first character. -/
theorem piecesAfter_keep {character : Char} {rest : List Char}
    (absent : ¬ separator <+: character :: rest) :
    piecesAfter separator 0 (character :: rest) =
      extendFirst character (piecesAfter separator 0 rest) := by
  rw [piecesAfter, if_neg (mt isSome_dropFront?_iff.mp absent)]

/-- There is always a piece. -/
theorem piecesAfter_ne_nil (passing : Nat) (text : List Char) :
    piecesAfter separator passing text ≠ [] := by
  induction text generalizing passing with
  | nil => simp [piecesAfter]
  | cons character rest inductionHypothesis =>
    cases passing with
    | succ passing => exact inductionHypothesis passing
    | zero =>
      rw [piecesAfter]
      split
      · exact List.cons_ne_nil _ _
      · cases piecesAfter separator 0 rest <;> exact List.cons_ne_nil _ _

/-- A character is put in front of the first piece only. -/
theorem extendFirst_append {pieces : List (List Char)} (present : pieces ≠ []) (character : Char)
    (more : List (List Char)) :
    extendFirst character (pieces ++ more) = extendFirst character pieces ++ more := by
  cases pieces with
  | nil => exact absurd rfl present
  | cons _ _ => rfl

/-- A text is its own only piece, or there are two. -/
theorem piecesAfter_eq_or_two_le (text : List Char) :
    piecesAfter separator 0 text = [text] ∨ 2 ≤ (piecesAfter separator 0 text).length := by
  induction text with
  | nil => exact .inl rfl
  | cons character rest inductionHypothesis =>
    by_cases starts : separator <+: character :: rest
    · right
      rw [piecesAfter, if_pos (isSome_dropFront?_iff.mpr starts), List.length_cons]
      exact Nat.succ_le_succ (List.length_pos_iff.mpr (piecesAfter_ne_nil _ _))
    · rw [piecesAfter_keep starts]
      rcases inductionHypothesis with whole | more
      · left
        rw [whole, extendFirst]
      · right
        cases pieces : piecesAfter separator 0 rest with
        | nil => exact absurd pieces (piecesAfter_ne_nil _ _)
        | cons first others =>
          rw [pieces] at more
          exact more

/-- A text that is shorter than the separator is its own only piece. -/
theorem piecesAfter_of_shorter {text : List Char} (shorter : text.length < separator.length) :
    piecesAfter separator 0 text = [text] := by
  induction text with
  | nil => rfl
  | cons character rest inductionHypothesis =>
    have absent : ¬ separator <+: character :: rest := by
      intro starts
      exact absurd starts.length_le (Nat.not_le.mpr shorter)
    rw [piecesAfter_keep absent, inductionHypothesis (Nat.lt_of_succ_lt shorter), extendFirst]

/-- A separator without a border that stands behind a text is not found too early. If it
were, its end would be found again at its front. -/
theorem IsUnbordered.starts_of_starts (unbordered : IsUnbordered separator) {piece rest : List Char}
    (present : piece ≠ []) (starts : separator <+: piece ++ (separator ++ rest)) :
    separator <+: piece := by
  by_cases fits : separator.length ≤ piece.length
  · exact List.prefix_of_prefix_length_le starts (List.prefix_append _ _) fits
  · -- The rest of the separator behind the text would be a border.
    have shorter := Nat.not_le.mp fits
    have positive := List.length_pos_iff.mpr present
    obtain ⟨remaining, whole⟩ :=
      List.prefix_of_prefix_length_le (List.prefix_append piece (separator ++ rest)) starts
        (Nat.le_of_lt shorter)
    have length : piece.length + remaining.length = separator.length := by
      rw [← whole, List.length_append]
    have behind : remaining <+: separator ++ rest := by
      rw [← whole] at starts
      have dropped := List.IsPrefix.drop starts piece.length
      rwa [List.drop_left, List.drop_left, whole] at dropped
    have front : remaining <+: separator :=
      List.prefix_of_prefix_length_le behind (List.prefix_append _ _) (by omega)
    have border := unbordered.2 remaining.length (by omega) (by omega)
    refine absurd ?_ border
    have size : separator.length - remaining.length = piece.length := by omega
    rw [← List.prefix_iff_eq_take.mp front, size]
    conv_rhs => rw [← whole]
    exact List.drop_left.symm

/-- A separator without a border is found where it stands, whatever is in front of it. The
induction is on the length of what is in front: either that begins with a separator, which
is cut off, or its first character is kept. -/
theorem IsUnbordered.piecesAfter_append (unbordered : IsUnbordered separator)
    (piece rest : List Char) :
    piecesAfter separator 0 (piece ++ (separator ++ rest)) =
      piecesAfter separator 0 piece ++ piecesAfter separator 0 rest := by
  induction length : piece.length using Nat.strong_induction_on generalizing piece with
  | h size inductionHypothesis =>
    cases piece with
    | nil => exact piecesAfter_cut unbordered.1 rest
    | cons character more =>
      by_cases starts : separator <+: character :: more
      · obtain ⟨left, cut⟩ := starts
        have shorter : left.length < size := by
          have positive := List.length_pos_iff.mpr unbordered.1
          have lengths := congrArg List.length cut
          rw [List.length_append, length] at lengths
          omega
        rw [← cut, List.append_assoc, piecesAfter_cut unbordered.1, piecesAfter_cut unbordered.1,
          inductionHypothesis left.length shorter left rfl, List.cons_append]
      · have later : ¬ separator <+: character :: (more ++ (separator ++ rest)) := fun found =>
          starts (unbordered.starts_of_starts (List.cons_ne_nil character more) found)
        have shorter : more.length < size := by
          rw [← length]
          exact Nat.lt_succ_self _
        rw [List.cons_append, piecesAfter_keep later, piecesAfter_keep starts,
          inductionHypothesis more.length shorter more rfl,
          extendFirst_append (piecesAfter_ne_nil _ _)]

/-- The pieces of a joined text are those of the texts one after the other. -/
theorem IsUnbordered.piecesAfter_intercalate (unbordered : IsUnbordered separator)
    (first : List Char) (rest : List (List Char)) :
    piecesAfter separator 0 (separator.intercalate (first :: rest)) =
      (first :: rest).flatMap (piecesAfter separator 0) := by
  induction rest generalizing first with
  | nil => simp
  | cons next more inductionHypothesis =>
    rw [List.intercalate_cons_cons, List.append_assoc, unbordered.piecesAfter_append,
      inductionHypothesis, ← List.flatMap_cons]

/-- Texts with as many pieces as there are texts are their own pieces. -/
theorem flatMap_piecesAfter_eq {texts : List (List Char)}
    (count : (texts.flatMap (piecesAfter separator 0)).length ≤ texts.length) :
    texts.flatMap (piecesAfter separator 0) = texts := by
  have atLeast (others : List (List Char)) :
      others.length ≤ (others.flatMap (piecesAfter separator 0)).length := by
    induction others with
    | nil => exact Nat.le_refl _
    | cons other more inductionHypothesis =>
      rw [List.flatMap_cons, List.length_append, List.length_cons, Nat.add_comm]
      exact Nat.add_le_add (List.length_pos_iff.mpr (piecesAfter_ne_nil _ _)) inductionHypothesis
  induction texts with
  | nil => rfl
  | cons text rest inductionHypothesis =>
    rw [List.flatMap_cons, List.length_append, List.length_cons] at count
    have later := atLeast rest
    rcases @piecesAfter_eq_or_two_le separator text with whole | more
    · rw [whole, List.length_singleton] at count
      rw [List.flatMap_cons, whole, inductionHypothesis (by omega), List.singleton_append]
    · omega

end

/-- As many pieces as there are texts are these texts, for a separator that keeps so many of
them apart.

Proof: a separator without a border is found wherever it was put, and so the pieces are the
pieces of the texts; they are as many as the texts only if every text is one piece. A single
text has at least two pieces or is one. The empty separator gives two pieces only for two
empty texts. -/
theorem JoinsApart.piecesOf_eq {separator : List Char} {texts : List (List Char)}
    (apart : JoinsApart separator texts.length) (present : texts ≠ [])
    (count : (piecesOf separator (separator.intercalate texts)).length = texts.length) :
    piecesOf separator (separator.intercalate texts) = texts := by
  obtain ⟨first, rest, rfl⟩ := List.exists_cons_of_ne_nil present
  by_cases empty : separator = []
  · -- The pieces at both ends are empty, so there are two of them and nothing between.
    subst empty
    have enough : 2 ≤ rest.length + 1 := by
      rw [piecesOf, if_pos List.isEmpty_nil] at count
      simp only [List.length_append, List.length_map, List.length_cons] at count
      omega
    rcases apart with ⟨filled, _⟩ | alone | ⟨_, two⟩
    · exact absurd rfl filled
    · exact absurd enough (Nat.not_le.mpr (Nat.lt_succ_of_le alone))
    · obtain ⟨second, rfl⟩ := List.length_eq_one_iff.mp (Nat.succ.inj two)
      have joined : [].intercalate [first, second] = first ++ second := by simp
      rw [joined] at count ⊢
      rw [piecesOf, if_pos List.isEmpty_nil] at count
      simp only [List.length_append, List.length_map, List.length_cons, List.length_nil] at count
      have firstEmpty : first = [] := List.length_eq_zero_iff.mp (by omega)
      have secondEmpty : second = [] := List.length_eq_zero_iff.mp (by omega)
      rw [firstEmpty, secondEmpty]
      rfl
  · rw [Text.piecesOf_eq empty] at count ⊢
    rcases apart with unbordered | alone | ⟨none, _⟩
    · rw [unbordered.piecesAfter_intercalate] at count ⊢
      exact flatMap_piecesAfter_eq (Nat.le_of_eq count)
    · have single : rest = [] := List.length_eq_zero_iff.mp (Nat.le_zero.mp (Nat.le_of_succ_le_succ alone))
      subst single
      rw [List.intercalate_singleton] at count ⊢
      rcases @piecesAfter_eq_or_two_le separator first with whole | more
      · exact whole
      · rw [count, List.length_singleton] at more
        omega
    · exact absurd none empty

/-- Texts that show that a separator does not keep so many of them apart: they are cut
into as many pieces, but into others. The texts start with digits and a digit is one of
the pieces. -/
structure Straddles (separator : List Char) (texts : List (List Char)) : Prop where
  count : (piecesOf separator (separator.intercalate texts)).length = texts.length
  differ : piecesOf separator (separator.intercalate texts) ≠ texts
  digits : ∀ text ∈ texts, ∀ first ∈ text.head?, first.isDigit = true
  digit : ∃ digit, digit.isDigit = true ∧
    [digit] ∈ piecesOf separator (separator.intercalate texts)

/-- An empty text in front of others changes nothing about how they are cut. -/
theorem Straddles.cons {separator : List Char} {texts : List (List Char)}
    (straddles : Straddles separator texts) (present : separator ≠ []) (filled : texts ≠ []) :
    Straddles separator ([] :: texts) := by
  obtain ⟨count, differ, digits, digit, isDigit, inside⟩ := straddles
  have cut : piecesOf separator (separator.intercalate ([] :: texts)) =
      [] :: piecesOf separator (separator.intercalate texts) := by
    obtain ⟨first, rest, rfl⟩ := List.exists_cons_of_ne_nil filled
    rw [piecesOf_eq present, piecesOf_eq present, List.intercalate_cons_cons, List.nil_append,
      piecesAfter_cut present]
  constructor
  · rw [cut, List.length_cons, List.length_cons, count]
  · rw [cut]
    intro same
    exact differ (List.cons.inj same).2
  · refine List.forall_mem_cons.mpr ⟨?_, digits⟩
    intro first none
    cases none
  · rw [cut]
    exact ⟨digit, isDigit, List.mem_cons_of_mem _ inside⟩

/-- A separator with a border does not keep two texts apart.

Proof: the first text is a digit and the front of the separator, and the second is empty.
With the separator between them the front and the border complete a separator at once, so
the first piece is the digit alone. The digit is not the one that the separator begins with,
so nothing is found before it. -/
theorem straddles_of_border {separator : List Char} {size : Nat} (below : size < separator.length)
    (positive : 0 < size) (border : separator.take size = separator.drop (separator.length - size)) :
    ∃ texts, texts.length = 2 ∧ Straddles separator texts := by
  have present : separator ≠ [] := List.ne_nil_of_length_pos (by omega)
  have other : ∃ digit : Char, digit.isDigit = true ∧ separator.head? ≠ some digit := by
    by_cases zero : separator.head? = some '0'
    · exact ⟨'1', by decide, by rw [zero]; decide⟩
    · exact ⟨'0', by decide, zero⟩
  obtain ⟨digit, isDigit, different⟩ := other
  -- The front of the separator in front of the border, then the separator, is the
  -- separator and then its back behind the border.
  have straddle : separator.take (separator.length - size) ++ separator =
      separator ++ separator.drop size := by
    calc separator.take (separator.length - size) ++ separator
        = separator.take (separator.length - size) ++ (separator.take size ++ separator.drop size) := by
          rw [List.take_append_drop]
      _ = separator.take (separator.length - size) ++ separator.drop (separator.length - size) ++
            separator.drop size := by rw [border, List.append_assoc]
      _ = separator ++ separator.drop size := by rw [List.take_append_drop]
  have cut : piecesOf separator
      (separator.intercalate [digit :: separator.take (separator.length - size), []]) =
        [[digit], separator.drop size] := by
    have shorter : (separator.drop size).length < separator.length := by
      rw [List.length_drop]
      omega
    have apart : ¬ separator <+: digit :: (separator ++ separator.drop size) := by
      rintro ⟨rest, same⟩
      apply different
      have heads := congrArg List.head? same
      rwa [List.head?_append_of_ne_nil _ present] at heads
    rw [piecesOf_eq present, List.intercalate_cons_cons, List.intercalate_singleton,
      List.append_nil, List.cons_append, straddle, piecesAfter_keep apart, piecesAfter_cut present,
      piecesAfter_of_shorter shorter]
    rfl
  refine ⟨[digit :: separator.take (separator.length - size), []], rfl, ?_, ?_, ?_, ?_⟩
  · rw [cut]
    rfl
  · rw [cut]
    intro same
    have lengths := congrArg List.length (List.cons.inj (List.cons.inj same).1).2
    rw [List.length_take, List.length_nil] at lengths
    omega
  · refine List.forall_mem_cons.mpr ⟨?_, List.forall_mem_singleton.mpr ?_⟩
    · intro first own
      cases own
      exact isDigit
    · intro first none
      cases none
  · rw [cut]
    exact ⟨digit, isDigit, List.mem_cons_self⟩

/-- The empty separator does not keep three texts or more apart.

Proof: the first text has as many digits as there are texts but two, and the others are
empty. The empty separator is found at every place, so each digit is a piece, with an empty
one at both ends. -/
theorem straddles_nil (further : Nat) :
    ∃ texts, texts.length = further + 3 ∧ Straddles [] texts := by
  have joined : [].intercalate (List.replicate (further + 1) '0' ::
      List.replicate (further + 2) ([] : List Char)) = List.replicate (further + 1) '0' := by
    have nothing (count : Nat) : ([] : List Char).intercalate (List.replicate count []) = [] := by
      induction count with
      | zero => rfl
      | succ count inductionHypothesis =>
        cases count with
        | zero => rfl
        | succ count =>
          rw [List.replicate_succ] at inductionHypothesis
          rw [List.replicate_succ, List.replicate_succ, List.intercalate_cons_cons,
            inductionHypothesis]
          rfl
    have later := nothing (further + 2)
    rw [List.replicate_succ] at later ⊢
    rw [List.replicate_succ, List.intercalate_cons_cons, ← List.replicate_succ, later]
    simp
  have cut : piecesOf [] (List.replicate (further + 1) '0') =
      [] :: (List.replicate (further + 1) ['0'] ++ [[]]) := by
    rw [piecesOf, if_pos List.isEmpty_nil, List.map_replicate]
    rfl
  refine ⟨List.replicate (further + 1) '0' :: List.replicate (further + 2) [], by simp, ?_, ?_, ?_, ?_⟩
  · rw [joined, cut]
    simp
  · rw [joined, cut]
    intro same
    cases (List.cons.inj same).1
  · refine List.forall_mem_cons.mpr ⟨?_, ?_⟩
    · intro first own
      cases own
      decide
    · intro text member first own
      rw [List.eq_of_mem_replicate member] at own
      cases own
  · rw [joined, cut]
    exact ⟨'0', by decide, by simp [List.mem_replicate]⟩

/-- A separator that does not keep so many texts apart is shown not to by some.

Proof: the empty separator fails for three texts or more. Any other has a border, which
makes it fail for two texts, and empty texts in front of these do not change that. -/
theorem exists_straddles {separator : List Char} {count : Nat}
    (touching : ¬ JoinsApart separator count) :
    ∃ texts, texts.length = count ∧ Straddles separator texts := by
  obtain ⟨bordered, others⟩ := not_or.mp touching
  obtain ⟨several, notTwo⟩ := not_or.mp others
  by_cases empty : separator = []
  · subst empty
    obtain ⟨further, rfl⟩ : ∃ further, count = further + 3 := by
      refine ⟨count - 3, ?_⟩
      have unequal : count ≠ 2 := fun two => notTwo ⟨rfl, two⟩
      omega
    exact straddles_nil further
  · have found : ∃ size < separator.length, 0 < size ∧
        separator.take size = separator.drop (separator.length - size) := by
      by_contra none
      refine bordered ⟨empty, fun size below positive same => none ⟨size, below, positive, same⟩⟩
    obtain ⟨size, below, positive, border⟩ := found
    obtain ⟨further, rfl⟩ : ∃ further, count = further + 2 := ⟨count - 2, by omega⟩
    clear touching others several notTwo
    induction further with
    | zero => exact straddles_of_border below positive border
    | succ further inductionHypothesis =>
      obtain ⟨texts, length, straddles⟩ := inductionHypothesis
      have filled : texts ≠ [] := List.ne_nil_of_length_pos (by omega)
      exact ⟨[] :: texts, by rw [List.length_cons, length], straddles.cons empty filled⟩

example : JoinsApart ", ".toList 3 := by decide

example : ¬ JoinsApart "::".toList 2 := by decide

end EventSieve.Text
