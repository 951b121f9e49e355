import EventSieve.Proofs.Text.Pieces
import EventSieve.Proofs.Traversal
import EventSieve.Version.Semantic

/-!
# Pre-releases and build metadata as they are written

A row of segments has points between them; a segment has at least one character, and only
letters, digits and hyphens. A pre-release is a row behind a hyphen, build metadata are a
row behind a plus sign, and either may be left out. A segment of a pre-release that has
digits only has no zero in front that it does not need.

The readers take exactly the texts that are written in this way: a row is read up to the
first character that neither stands in a segment nor is a point, and what follows is left
to the next reader.
-/

namespace EventSieve.Version

/-- Whether characters can be a segment. -/
def IsSegment (part : List Char) : Prop :=
  part ≠ [] ∧ ∀ character ∈ part, Semantic.isSegmentChar character = true

/-- The text of a row: its parts with points between them. -/
def rowChars (parts : List (List Char)) : List Char :=
  ['.'].intercalate parts

/-- The text of a row behind a mark; without parts nothing is written. -/
def markedRow (mark : Char) (parts : List (List Char)) : List Char :=
  if parts = [] then [] else mark :: rowChars parts

/-- A pre-release and build metadata as they are written, without parts when they are left
out. -/
structure WrittenSuffix where
  pre : List (List Char)
  build : List (List Char)
  preSegments : ∀ part ∈ pre, IsSegment part
  buildSegments : ∀ part ∈ build, IsSegment part
  minimal : ∀ part ∈ pre, part.all Char.isDigit = true → Semantic.hasLeadingZero part = false

namespace WrittenSuffix

/-- The text of a pre-release with build metadata behind it. -/
def chars (suffix : WrittenSuffix) : List Char :=
  markedRow '-' suffix.pre ++ markedRow '+' suffix.build

end WrittenSuffix

namespace Semantic

/-- Whether what follows a row does not go on with it. -/
def EndsRow (rest : List Char) : Prop :=
  ∀ character ∈ rest.head?, (isSegmentChar character || decide (character = '.')) = false

/-- A row of segments is made of segment characters and points. -/
theorem mem_rowChars {parts : List (List Char)} (segments : ∀ part ∈ parts, IsSegment part) :
    ∀ character ∈ rowChars parts, (isSegmentChar character || decide (character = '.')) = true := by
  intro character member
  rcases Text.mem_intercalate member with rfl | ⟨part, among, inside⟩
  · rfl
  · rw [(segments part among).2 character inside, Bool.true_or]

/-- A row is read up to where it ends. -/
theorem segments?_eq (body : List Char) :
    ∃ row after, body = row ++ after ∧ EndsRow after ∧
      (∀ character ∈ row, (isSegmentChar character || decide (character = '.')) = true) ∧
      segments? body =
        if (Text.pieces '.' row).any List.isEmpty then none
        else some (Text.pieces '.' row, after) := by
  let inRow (character : Char) : Bool := isSegmentChar character || decide (character = '.')
  refine ⟨body.takeWhile inRow, body.dropWhile inRow, List.takeWhile_append_dropWhile.symm, ?_,
    fun _ member => @List.mem_takeWhile_imp _ inRow _ _ member, ?_⟩
  · intro character first
    have stopped := List.head?_dropWhile_not inRow body
    rw [Option.mem_def.mp first] at stopped
    exact stopped
  · have left : body.drop (body.takeWhile inRow).length = body.dropWhile inRow := by
      have whole := @List.drop_left _ (body.takeWhile inRow) (body.dropWhile inRow)
      rwa [List.takeWhile_append_dropWhile] at whole
    rw [segments?, left]

/-- What is read is a row of segments with what does not go on with it. The row is taken as
far as its characters go, and then cut at its points; every piece has to have a character. -/
theorem segments?_eq_some_iff {body after : List Char} {parts : List (List Char)} :
    segments? body = some (parts, after) ↔
      parts ≠ [] ∧ (∀ part ∈ parts, IsSegment part) ∧ EndsRow after ∧
        body = rowChars parts ++ after := by
  constructor
  · intro read
    obtain ⟨row, rest, rfl, ended, all, same⟩ := segments?_eq body
    rw [same] at read
    split at read
    · cases read
    · rename_i filled
      cases read
      refine ⟨Text.pieces_ne_nil '.' row, ?_, ended, ?_⟩
      · intro part among
        refine ⟨?_, ?_⟩
        · rintro rfl
          exact filled (List.any_eq_true.mpr ⟨[], among, rfl⟩)
        · intro character inside
          obtain ⟨member, solid⟩ := Text.mem_of_mem_pieces among inside
          have known := all character member
          rwa [decide_eq_false solid, Bool.or_false] at known
      · rw [rowChars, Text.intercalate_pieces]
  · rintro ⟨present, segments, ended, rfl⟩
    have taken := (Text.run_append (mem_rowChars segments) ended).1
    obtain ⟨first, rest, rfl⟩ := List.exists_cons_of_ne_nil present
    have cut : Text.pieces '.' (rowChars (first :: rest)) = first :: rest :=
      Text.pieces_intercalate fun part among point => absurd ((segments part among).2 '.' point) (by decide)
    have filled : (first :: rest).any List.isEmpty = false := by
      rw [List.any_eq_false]
      intro part among
      simpa using (segments part among).1
    simp only [segments?, taken, cut, filled, List.drop_left, Bool.false_eq_true, if_false]

/-- Build metadata are a row behind a plus sign, or nothing. Nothing may stand behind them,
since they end the text. -/
theorem buildMetadata?_eq_some_iff {body : List Char} {build : List Segment} :
    buildMetadata? body = some build ↔ ∃ parts, (∀ part ∈ parts, IsSegment part) ∧
      markedRow '+' parts = body ∧ parts.map Segment.ofChars = build := by
  constructor
  · intro read
    unfold buildMetadata? at read
    split at read
    · cases read
      exact ⟨[], by simp, rfl, rfl⟩
    · split at read
      · rename_i parts row
        cases read
        obtain ⟨present, segments, _, rfl⟩ := segments?_eq_some_iff.mp row
        exact ⟨parts, segments, by rw [markedRow, if_neg present, List.append_nil], rfl⟩
      · cases read
    · cases read
  · rintro ⟨parts, segments, rfl, rfl⟩
    by_cases none : parts = []
    · subst none
      rfl
    · have row : segments? (rowChars parts) = some (parts, []) :=
        segments?_eq_some_iff.mpr ⟨none, segments, by rintro _ ⟨⟩, (List.append_nil _).symm⟩
      simp only [markedRow, if_neg none, buildMetadata?, row]

/-- A pre-release is a row behind a hyphen, or nothing, in front of what has a plus sign.
The row ends where build metadata begin, and a segment of digits has no needless zero. -/
theorem preRelease?_eq_some_iff {body rest : List Char} {pre : List Segment}
    (ended : ∀ character ∈ rest.head?, character = '+') :
    preRelease? body = some (pre, rest) ↔ ∃ parts, (∀ part ∈ parts, IsSegment part) ∧
      (∀ part ∈ parts, part.all Char.isDigit = true → hasLeadingZero part = false) ∧
      markedRow '-' parts ++ rest = body ∧ parts.map Segment.ofChars = pre := by
  have minimal_iff (parts : List (List Char)) :
      (parts.any fun part => part.all Char.isDigit && hasLeadingZero part) = false ↔
        ∀ part ∈ parts, part.all Char.isDigit = true → hasLeadingZero part = false := by
    simp only [List.any_eq_false, Bool.and_eq_true, not_and, Bool.not_eq_true]
  constructor
  · intro read
    unfold preRelease? at read
    split at read
    · split at read
      · rename_i parts after row
        split at read
        · cases read
        · rename_i plain
          cases read
          obtain ⟨present, segments, _, rfl⟩ := segments?_eq_some_iff.mp row
          exact ⟨parts, segments, (minimal_iff parts).mp (Bool.eq_false_iff.mpr plain),
            by rw [markedRow, if_neg present, List.cons_append], rfl⟩
      · cases read
    · cases read
      exact ⟨[], by simp, by simp, rfl, rfl⟩
  · rintro ⟨parts, segments, minimal, rfl, rfl⟩
    by_cases none : parts = []
    · subst none
      cases rest with
      | nil => rfl
      | cons first more =>
        rw [ended first rfl]
        rfl
    · have stop : EndsRow rest := by
        intro character first
        rw [ended character first]
        rfl
      have row : segments? (rowChars parts ++ rest) = some (parts, rest) :=
        segments?_eq_some_iff.mpr ⟨none, segments, stop, rfl⟩
      simp only [markedRow, if_neg none, List.cons_append, preRelease?, row,
        (minimal_iff parts).mpr minimal, Bool.false_eq_true, if_false]

/-- A suffix is read exactly when it is written as a pre-release with build metadata behind
it, and as the segments of both. Each part is read up to where the other one or the end
begins. -/
theorem suffix?_eq_some_iff {body : List Char} {pre build : List Segment} :
    suffix? body = some (pre, build) ↔ ∃ written : WrittenSuffix, written.chars = body ∧
      written.pre.map Segment.ofChars = pre ∧ written.build.map Segment.ofChars = build := by
  have marked (parts : List (List Char)) :
      ∀ character ∈ (markedRow '+' parts).head?, character = '+' := by
    intro character first
    rw [markedRow] at first
    split at first
    · cases first
    · exact (Option.some.inj first).symm
  constructor
  · intro read
    unfold suffix? at read
    split at read
    · rename_i found rest front
      obtain ⟨others, back, same⟩ := Option.map_eq_some_iff.mp read
      cases same
      obtain ⟨buildParts, buildSegments, rfl, rfl⟩ := buildMetadata?_eq_some_iff.mp back
      obtain ⟨preParts, preSegments, minimal, rfl, rfl⟩ :=
        (preRelease?_eq_some_iff (marked buildParts)).mp front
      exact ⟨⟨preParts, buildParts, preSegments, buildSegments, minimal⟩, rfl, rfl, rfl⟩
    · cases read
  · rintro ⟨⟨preParts, buildParts, preSegments, buildSegments, minimal⟩, rfl, rfl, rfl⟩
    have front := (preRelease?_eq_some_iff (marked buildParts)).mpr
      ⟨preParts, preSegments, minimal, rfl, rfl⟩
    have back := buildMetadata?_eq_some_iff.mpr ⟨buildParts, buildSegments, rfl, rfl⟩
    simp only [suffix?, WrittenSuffix.chars, front, back, Option.map_some]

end Semantic

end EventSieve.Version
