import EventSieve.Cell.ColumnType
import EventSieve.Proofs.Text.Parts

/-!
# How types are written

A tag is a word for a type in any case, or the word for an enumeration with variants between
parentheses, and blanks may stand around it. The variants are what is kept of the pieces
between commas: pieces of blanks only are left out, and of the others the blanks around
them. Every other character of a variant stays as it is written, parentheses too, and
variants keep their order and their repetitions.

Reading takes exactly these tags. The tag that is written for a type is one of them, for no
variant has a comma or blanks at its ends: what has been read once is read from its own tag
again.
-/

namespace EventSieve

namespace ColumnType

/-- What is kept of the pieces between commas. -/
inductive Keeps : List (List Char) → List String → Prop where
  | none : Keeps [] []
  | skip {piece : List Char} {pieces : List (List Char)} {variants : List String}
      (blank : ∀ character ∈ piece, Text.isBlank character = true) (later : Keeps pieces variants) :
      Keeps (piece :: pieces) variants
  | keep {front back : List Char} {variant : String} {pieces : List (List Char)}
      {variants : List String} (blankFront : ∀ character ∈ front, Text.isBlank character = true)
      (blankBack : ∀ character ∈ back, Text.isBlank character = true)
      (solid : Text.IsSolidEnded variant.toList) (later : Keeps pieces variants) :
      Keeps ((front ++ variant.toList ++ back) :: pieces) (variant :: variants)

/-- A piece of blanks is trimmed to nothing. -/
theorem trimChars_of_blank {piece : List Char}
    (blank : ∀ character ∈ piece, Text.isBlank character = true) : Text.trimChars piece = [] := by
  have left := @Text.trimChars_surrounded piece [] [] blank (by simp) rfl
  simpa using left

/-- The variants of pieces are what is kept of them. The relation says nothing of trimming
or of tests: from left to right a piece is either all blanks and skipped, or blanks around a
text that begins and ends otherwise, and both directions follow the pieces. -/
theorem keeps_iff {pieces : List (List Char)} {kept : List String} :
    Keeps pieces kept ↔
      (pieces.map fun piece => String.ofList (Text.trimChars piece)).filter (· ≠ "") = kept := by
  constructor
  · intro keeps
    induction keeps with
    | none => rfl
    | skip blank later inductionHypothesis =>
      rw [List.map_cons, trimChars_of_blank blank, List.filter_cons_of_neg (by simp),
        inductionHypothesis]
    | keep blankFront blankBack solid later inductionHypothesis =>
      rename_i variant pieces variants
      have present : variant ≠ "" := by
        rintro rfl
        exact solid.present rfl
      rw [List.map_cons, Text.trimChars_surrounded blankFront blankBack solid.trimmed,
        String.ofList_toList, List.filter_cons_of_pos (by simpa using present),
        inductionHypothesis]
  · rintro rfl
    induction pieces with
    | nil => exact .none
    | cons piece pieces inductionHypothesis =>
      obtain ⟨front, back, split, blankFront, blankBack⟩ := Text.exists_trimChars_append piece
      by_cases empty : Text.trimChars piece = []
      · rw [List.map_cons, empty, List.filter_cons_of_neg (by simp)]
        refine .skip ?_ inductionHypothesis
        rw [split, empty, List.append_nil]
        exact List.forall_mem_append.mpr ⟨blankFront, blankBack⟩
      · have present : String.ofList (Text.trimChars piece) ≠ "" := by
          intro none
          exact empty (String.ofList_inj.mp none)
        rw [List.map_cons, List.filter_cons_of_pos (by simpa using present)]
        have solid : Text.IsSolidEnded (String.ofList (Text.trimChars piece)).toList := by
          rw [String.toList_ofList]
          exact Text.isSolidEnded_trimChars empty
        have kept := Keeps.keep blankFront blankBack solid inductionHypothesis
        rwa [String.toList_ofList, ← split] at kept

/-- The words that are tags, with their types. -/
def vocabulary : List (String × ColumnType) :=
  [("str", .str), ("string", .str), ("int", .int), ("integer", .int), ("float", .float),
    ("bool", .bool), ("boolean", .bool), ("datetime", .datetime), ("timedelta", .timedelta),
    ("timezone", .timezone), ("json", .json), ("enum", .enum [])]

/-- There is a word for enumerations. -/
theorem enum_mem_vocabulary : ("enum", ColumnType.enum []) ∈ vocabulary := by decide +kernel

/-- A word is looked up as the type that it stands for. -/
theorem named?_eq_some_iff {word : String} {type : ColumnType} :
    named? word = some type ↔ (word, type) ∈ vocabulary := by
  constructor
  · intro found
    simp only [named?] at found
    repeat' split at found
    all_goals cases found
    all_goals simp_all [vocabulary]
  · intro among
    have all : vocabulary.all (fun entry => decide (named? entry.1 = some entry.2)) = true := by
      decide +kernel
    exact of_decide_eq_true (List.all_eq_true.mp all (word, type) among)

/-- The letters of a word are neither blank nor parentheses. -/
theorem letters_of_mem_vocabulary {word : String} {type : ColumnType}
    (among : (word, type) ∈ vocabulary) :
    ∀ letter ∈ word.toList, Text.isBlank letter = false ∧ letter ≠ '(' := by
  have all : vocabulary.all (fun entry => entry.1.toList.all fun letter =>
      !Text.isBlank letter && decide (letter ≠ '(')) = true := by decide +kernel
  intro letter member
  have own := List.all_eq_true.mp (List.all_eq_true.mp all (word, type) among) letter member
  simpa using own

/-- The tag of a type that a word stands for is such a word. -/
theorem tag_mem_vocabulary {word : String} {type : ColumnType} (among : (word, type) ∈ vocabulary) :
    (type.tag, type) ∈ vocabulary ∧ Text.lowerChars type.tag.toList = type.tag.toList := by
  have all : vocabulary.all (fun entry => decide ((entry.2.tag, entry.2) ∈ vocabulary ∧
      Text.lowerChars entry.2.tag.toList = entry.2.tag.toList)) = true := by decide +kernel
  exact of_decide_eq_true (List.all_eq_true.mp all (word, type) among)

/-- A trimmed tag for a type: a word for it in any case, or the word for an enumeration in any
case with variants between parentheses. -/
inductive Denotes : List Char → ColumnType → Prop where
  | word {body : List Char} {type : ColumnType} {word : String} (among : (word, type) ∈ vocabulary)
      (letters : Text.lowerChars body = word.toList) : Denotes body type
  | listed {front : List Char} {pieces : List (List Char)} {variants : List String}
      (letters : Text.lowerChars front = "enum".toList) (present : pieces ≠ [])
      (apart : ∀ piece ∈ pieces, ',' ∉ piece) (kept : Keeps pieces variants) :
      Denotes (front ++ '(' :: ([','].intercalate pieces ++ [')'])) (.enum variants)

/-- A tag for a type, with any blanks around it. -/
def Spells (tag : String) (type : ColumnType) : Prop :=
  ∃ front body back, tag.toList = front ++ body ++ back ∧
    (∀ character ∈ front, Text.isBlank character = true) ∧
    (∀ character ∈ back, Text.isBlank character = true) ∧ Denotes body type

section

variable {body inner : List Char} {tag : String} {type : ColumnType}

/-- A parenthesis is the small letter of itself only. -/
theorem eq_paren_of_toLower {character paren : Char} (known : paren = '(' ∨ paren = ')')
    (lowered : character.toLower = paren) : character = paren := by
  rcases known with rfl | rfl
  · exact Text.lowering (fun character lower => lower = '(' → character = '(') (by decide)
      (fun _ same => same) character lowered
  · exact Text.lowering (fun character lower => lower = ')' → character = ')') (by decide)
      (fun _ same => same) character lowered

/-- A tag without blanks around it has nothing to trim. A word has no blanks at all. A tag
with variants begins with a letter of the word and ends with a parenthesis, whatever stands
between them. -/
theorem Denotes.trimmed (denotes : Denotes body type) : Text.trimChars body = body := by
  cases denotes with
  | word among letters =>
    apply Text.trimChars_of_solid
    exact Text.isBlank_of_lowerChars letters fun letter member =>
      (letters_of_mem_vocabulary among letter member).1
  | @listed front pieces variants letters present apart kept =>
    have solid := Text.isBlank_of_lowerChars letters fun letter member =>
      (letters_of_mem_vocabulary enum_mem_vocabulary letter member).1
    have filled : front ≠ [] := by
      rintro rfl
      exact absurd letters (by decide +kernel)
    apply Text.trimChars_of_ends
    · intro first member
      obtain ⟨letter, more, same⟩ := List.exists_cons_of_ne_nil filled
      rw [same] at solid member
      cases member
      exact solid first List.mem_cons_self
    · intro last member
      have ended : (front ++ '(' :: ([','].intercalate pieces ++ [')'])).getLast? = some ')' := by
        simp [List.getLast?_append, List.getLast?_cons]
      rw [ended] at member
      cases member
      decide

/-- What opens the variants of a tag is the word for an enumeration and a parenthesis. -/
theorem opens_iff {text : List Char} : Text.lowerChars text = "enum(".toList ↔
    ∃ front, Text.lowerChars front = "enum".toList ∧ text = front ++ ['('] := by
  have letters : "enum(".toList = "enum".toList ++ ['('] := by decide +kernel
  rw [letters, Text.lowerChars, List.map_eq_append_iff]
  constructor
  · rintro ⟨front, back, rfl, word, opened⟩
    obtain ⟨character, rfl, lowered⟩ := List.map_eq_singleton_iff.mp opened
    exact ⟨front, word, by rw [eq_paren_of_toLower (.inl rfl) lowered]⟩
  · rintro ⟨front, word, rfl⟩
    exact ⟨front, ['('], rfl, word, by decide⟩

/-- The text of the variants may be found by the numbers of bytes that are counted in the small
letters of the tag. In the tag itself they fall between characters, whatever these are, and
what stands between them is the text between its parentheses, spelled as it was.

Proof: the small letters of a tag are those of its word, of a parenthesis, of the text
between them and of the other parenthesis. Only the last two of these offsets depend on the
text, and its small letters take as many bytes as itself. -/
theorem exists_slice? (lowered : Text.lowerChars body = "enum(".toList ++ (inner ++ [')'])) :
    ∃ front part, Text.lowerChars front = "enum".toList ∧ body = front ++ '(' :: (part ++ [')']) ∧
      Text.slice? (Text.size body - Text.size inner - 1) (Text.size body - 1) body = some part := by
  obtain ⟨opening, rest, rfl, opened, later⟩ := List.map_eq_append_iff.mp lowered
  obtain ⟨part, closing, rfl, own, closed⟩ := List.map_eq_append_iff.mp later
  obtain ⟨last, rfl, lastLowered⟩ := List.map_eq_singleton_iff.mp closed
  obtain rfl := eq_paren_of_toLower (.inr rfl) lastLowered
  have letters : Text.lowerChars part = inner := own
  have same : Text.size inner = Text.size part := letters ▸ Text.size_lowerChars part
  -- the letters and parentheses of a tag are ASCII; what stands between them may not be
  have five : Text.size opening = 5 := by
    rw [← Text.size_lowerChars]
    exact (congrArg Text.size opened).trans (by decide +kernel)
  have whole : Text.size (opening ++ (part ++ [')'])) = Text.size opening + Text.size part + 1 := by
    have one : Text.size [')'] = 1 := by decide +kernel
    rw [Text.size_append, Text.size_append, one, Nat.add_assoc]
  have start : Text.size (opening ++ (part ++ [')'])) - Text.size inner - 1 =
      Text.size opening := by omega
  have stop : Text.size (opening ++ (part ++ [')'])) - 1 = Text.size opening + Text.size part := by
    omega
  obtain ⟨front, word, split⟩ := opens_iff.mp opened
  refine ⟨front, part, word, by simp [split], ?_⟩
  rw [start, stop]
  exact Text.slice?_append opening part [')']

/-- The text of the variants stands between the parentheses behind the word.

Proof: a tag whose small letters open and close the variants is cut between its parentheses,
as the offsets fit. Conversely the small letters of a tag of this form open and close them, and
what is cut out then has to be the text itself, since the word takes as many characters in
every case. -/
theorem enumBody?_eq_some_iff : enumBody? body = some inner ↔
    ∃ front, Text.lowerChars front = "enum".toList ∧ body = front ++ '(' :: (inner ++ [')']) := by
  constructor
  · intro found
    obtain ⟨opened, behind, later⟩ := Option.bind_eq_some_iff.mp found
    obtain ⟨lowered, between, cut⟩ := Option.bind_eq_some_iff.mp later
    have letters := Text.eq_append_of_dropFront? behind
    rw [Text.eq_append_of_dropBack? between] at letters
    obtain ⟨front, part, word, split, slice⟩ := exists_slice? letters
    obtain rfl := Option.some.inj (slice.symm.trans cut)
    exact ⟨front, word, split⟩
  · rintro ⟨front, word, rfl⟩
    have letters : Text.lowerChars (front ++ '(' :: (inner ++ [')'])) =
        "enum(".toList ++ (Text.lowerChars inner ++ [')']) := by
      have opened := opens_iff.mpr ⟨front, word, rfl⟩
      rw [← opened]
      simp [Text.lowerChars]
    obtain ⟨other, part, otherWord, split, slice⟩ := exists_slice? letters
    have same : front.length = other.length := by
      rw [← Text.length_lowerChars, ← Text.length_lowerChars other, word, otherWord]
    have behind := (List.cons.inj (List.append_inj split same).2).2
    obtain rfl : inner = part := (List.append_left_inj [')']).mp behind
    rw [enumBody?, letters, Text.dropFront?_append, Option.bind_eq_bind, Option.bind_some,
      Text.dropBack?_append]
    exact slice

/-- No word has a parenthesis. -/
theorem named?_of_paren_mem (opened : '(' ∈ body) :
    named? (String.ofList (Text.lowerChars body)) = none := by
  apply Option.eq_none_iff_forall_not_mem.mpr
  intro type found
  have letters := letters_of_mem_vocabulary (named?_eq_some_iff.mp found)
  rw [String.toList_ofList] at letters
  have lowered : '(' ∈ Text.lowerChars body := List.mem_map.mpr ⟨'(', opened, by decide⟩
  exact (letters '(' lowered).2 rfl

/-- A trimmed tag is looked up as a word first, and its variants are read otherwise. The two
forms do not compete, since no word has a parenthesis. Cutting at commas and joining with
commas undo each other, so the pieces of the grammar are those that the text is cut into. -/
theorem denotes_iff : Denotes body type ↔
    (named? (String.ofList (Text.lowerChars body))).or
      ((enumBody? body).map fun inner => .enum (variants inner)) = some type := by
  constructor
  · intro denotes
    cases denotes with
    | word among letters =>
      rw [letters, String.ofList_toList, named?_eq_some_iff.mpr among, Option.some_or]
    | @listed front pieces listed letters present apart kept =>
      obtain ⟨first, rest, rfl⟩ := List.exists_cons_of_ne_nil present
      rw [named?_of_paren_mem (by simp), Option.none_or,
        enumBody?_eq_some_iff.mpr ⟨front, letters, rfl⟩, Option.map_some, variants,
        Text.pieces_intercalate apart, keeps_iff.mp kept]
  · intro read
    rcases Option.or_eq_some_iff.mp read with word | ⟨_, listed⟩
    · exact .word (named?_eq_some_iff.mp word) String.toList_ofList.symm
    · obtain ⟨inner, found, rfl⟩ := Option.map_eq_some_iff.mp listed
      obtain ⟨front, letters, rfl⟩ := enumBody?_eq_some_iff.mp found
      have apart : ∀ piece ∈ Text.pieces ',' inner, ',' ∉ piece :=
        fun piece among comma => (Text.mem_of_mem_pieces among comma).2 rfl
      have denotes := Denotes.listed letters (Text.pieces_ne_nil ',' inner) apart
        (keeps_iff.mpr rfl)
      rwa [Text.intercalate_pieces] at denotes

/-- A tag is read as the type that it spells. -/
theorem ofTag?_eq_some_iff : ofTag? tag = some type ↔ Spells tag type := by
  rw [ofTag?, ← denotes_iff]
  constructor
  · intro denotes
    obtain ⟨front, back, split, blankFront, blankBack⟩ := Text.exists_trimChars_append tag.toList
    exact ⟨front, _, back, split, blankFront, blankBack, denotes⟩
  · rintro ⟨front, body, back, split, blankFront, blankBack, denotes⟩
    rwa [split, Text.trimChars_surrounded blankFront blankBack denotes.trimmed]

/-- What is kept of pieces without commas starts and ends with no blank, and has no comma. -/
theorem Keeps.clean {pieces : List (List Char)} {variants : List String}
    (kept : Keeps pieces variants) (apart : ∀ piece ∈ pieces, ',' ∉ piece) :
    ∀ variant ∈ variants, Text.IsSolidEnded variant.toList ∧ ',' ∉ variant.toList := by
  induction kept with
  | none => simp
  | skip blank later inductionHypothesis =>
    exact inductionHypothesis (List.forall_mem_cons.mp apart).2
  | keep blankFront blankBack solid later inductionHypothesis =>
    obtain ⟨own, others⟩ := List.forall_mem_cons.mp apart
    refine List.forall_mem_cons.mpr ⟨⟨solid, fun comma => own ?_⟩, inductionHypothesis others⟩
    exact List.mem_append_left _ (List.mem_append_right _ comma)

/-- Texts joined by a comma and a blank are texts joined by commas, with the blank in front of
all but the first. -/
theorem intercalate_comma_blank (first : List Char) (rest : List (List Char)) :
    [',', ' '].intercalate (first :: rest) =
      [','].intercalate (first :: rest.map fun text => ' ' :: text) := by
  induction rest generalizing first with
  | nil => rfl
  | cons next more inductionHypothesis =>
    have step := inductionHypothesis next
    rw [List.intercalate_cons_cons, step, List.map_cons, List.intercalate_cons_cons]
    cases more <;> simp

/-- Variants with a blank in front are kept. -/
theorem keeps_spaced {variants : List String}
    (solid : ∀ variant ∈ variants, Text.IsSolidEnded variant.toList) :
    Keeps (variants.map fun variant => ' ' :: variant.toList) variants := by
  induction variants with
  | nil => exact .none
  | cons variant more inductionHypothesis =>
    obtain ⟨own, others⟩ := List.forall_mem_cons.mp solid
    have blank : ∀ character ∈ [' '], Text.isBlank character = true :=
      List.forall_mem_singleton.mpr (by decide)
    have kept := Keeps.keep blank (List.forall_mem_nil _) own (inductionHypothesis others)
    rwa [List.append_nil] at kept

/-- The tag of an enumeration has its variants between parentheses, with a blank in front of
all but the first. -/
theorem toList_tag_enum (first : String) (rest : List String) :
    (ColumnType.enum (first :: rest)).tag.toList = "enum".toList ++
      '(' :: ([','].intercalate (first.toList :: rest.map fun variant => ' ' :: variant.toList) ++
        [')']) := by
  have opened : "enum(".toList = "enum".toList ++ ['('] := by decide +kernel
  have closed : ")".toList = [')'] := by decide +kernel
  have comma : ", ".toList = [',', ' '] := by decide +kernel
  rw [tag, String.toList_append, String.toList_append, String.toList_intercalate, opened, closed,
    comma, List.map_cons, intercalate_comma_blank, List.map_map, List.append_assoc,
    List.append_assoc, List.singleton_append]
  rfl

/-- The tag that is written for variants spells the enumeration of them. -/
theorem denotes_tag_enum {first : String} {rest : List String}
    (clean : ∀ variant ∈ first :: rest,
      Text.IsSolidEnded variant.toList ∧ ',' ∉ variant.toList) :
    Denotes (ColumnType.enum (first :: rest)).tag.toList (.enum (first :: rest)) := by
  obtain ⟨own, others⟩ := List.forall_mem_cons.mp clean
  have apart : ∀ piece ∈ first.toList :: rest.map fun variant => ' ' :: variant.toList,
      ',' ∉ piece := by
    refine List.forall_mem_cons.mpr ⟨own.2, List.forall_mem_map.mpr ?_⟩
    intro variant among comma
    rcases List.mem_cons.mp comma with blank | inside
    · exact absurd blank (by decide)
    · exact (others variant among).2 inside
  have kept := Keeps.keep (List.forall_mem_nil _) (List.forall_mem_nil _) own.1
    (keeps_spaced fun variant among => (others variant among).1)
  rw [List.nil_append, List.append_nil] at kept
  rw [toList_tag_enum]
  exact .listed (by decide +kernel) (List.cons_ne_nil _ _) apart kept

/-- A type that a tag spells is written as a tag that spells it. -/
theorem spells_tag_of_spells (spelled : Spells tag type) : Spells type.tag type := by
  obtain ⟨_, body, _, _, _, _, denotes⟩ := spelled
  have bare (written : Denotes type.tag.toList type) : Spells type.tag type :=
    ⟨[], type.tag.toList, [], by simp, List.forall_mem_nil _, List.forall_mem_nil _, written⟩
  -- without variants left the word alone is written, whether they stood between parentheses or not
  cases denotes with
  | word among letters =>
    obtain ⟨own, lower⟩ := tag_mem_vocabulary among
    exact bare (.word own lower)
  | @listed front pieces variants letters present apart kept =>
    cases variants with
    | nil => exact bare (.word enum_mem_vocabulary (by decide +kernel))
    | cons first rest => exact bare (denotes_tag_enum (kept.clean apart))

/-- A tag that is read spells the type that it is read as: in an enumeration the variants
stand between the commas as the caller has written them, in their order and as often, but
for blanks around them and pieces of blanks only. The tag that is written for the type is
read as it again.

Proof: reading is the same as being spelled by the grammar of tags, for tags with any blanks
around them and in any case. Variants that were read have no comma and no blank at their
ends, so the tag that is written, with a comma and a blank between variants, is a spelling
of the same type; that is all that reading asks for. -/
theorem tags_stable_under_printing (read : ofTag? tag = some type) :
    ofTag? type.tag = some type ∧ Spells tag type := by
  have spelled := ofTag?_eq_some_iff.mp read
  exact ⟨ofTag?_eq_some_iff.mpr (spells_tag_of_spells spelled), spelled⟩

end

/-- Variants with parentheses and letters outside ASCII, one of them twice, stay as they are
written in a tag of mixed case. -/
theorem tags_stable_under_printing_variants :
    ofTag? " eNUM( Größe(m²),, B),b ,\u3000,B)) " = some (.enum ["Größe(m²)", "B)", "b", "B)"]) ∧
      ofTag? "enum(Größe(m²), B), b, B))" = some (.enum ["Größe(m²)", "B)", "b", "B)"]) ∧
      Spells " eNUM( Größe(m²),, B),b ,\u3000,B)) " (.enum ["Größe(m²)", "B)", "b", "B)"]) := by
  have read : ofTag? " eNUM( Größe(m²),, B),b ,\u3000,B)) " =
      some (.enum ["Größe(m²)", "B)", "b", "B)"]) := by decide +kernel
  have printed : (ColumnType.enum ["Größe(m²)", "B)", "b", "B)"]).tag =
      "enum(Größe(m²), B), b, B))" := by decide +kernel
  obtain ⟨again, spelled⟩ := tags_stable_under_printing read
  rw [printed] at again
  exact ⟨read, again, spelled⟩

end ColumnType

end EventSieve
