import EventSieve.Proofs.Filter.Elements
import EventSieve.Proofs.Number.Numerals

/-!
# Versions are ordered by their forms, then by their texts

Semantic versions are ordered by their numbers, then by their pre-releases, where having
none comes last, and then by their build metadata. This order tells all of them apart,
and so does the order of segments: numerals come before words and are ordered by value,
of one value by how many zeros stand in front, and words are ordered as texts. A numeral
without its zeros is greater than every one with fewer digits, so lengths and texts are
enough to compare values.

Versions are therefore ordered totally. Those with a semantic form come first, in the
order of the forms; a text is only looked at where the forms are the same or missing. Two
versions hold one place exactly when their trimmed texts are the same, so a set of
versions has one element for each trimmed text.
-/

namespace EventSieve.Version

open Std (LawfulEqCmp LawfulEqOrd)

/-- A row of digits takes up one byte for each. -/
theorem utf8ByteSize_digits {digits : List Char} (all : ∀ digit ∈ digits, digit.isDigit = true) :
    (String.ofList digits).utf8ByteSize = digits.length := by
  induction digits with
  | nil => rfl
  | cons digit rest inductionHypothesis =>
    obtain ⟨own, later⟩ := List.forall_mem_cons.mp all
    have small : digit.val ≤ 127 := by
      have bounds := Text.toNat_of_isDigit own
      rw [UInt32.le_iff_toNat_le]
      exact Nat.le_trans bounds.2 (by decide)
    have byte : digit.utf8Size = 1 := if_pos small
    rw [String.utf8ByteSize_ofList] at inductionHypothesis ⊢
    rw [String.utf8Len_cons, inductionHypothesis later, byte, List.length_cons]

/-- Rows of digits without zeros in front are ordered as their numbers: first by how many
digits there are, then as texts. A longer row has a first digit that is not zero, which
outweighs all digits of a shorter one. -/
theorem compare_withoutZeros {left right : List Char}
    (leftDigits : ∀ digit ∈ left, digit.isDigit = true)
    (rightDigits : ∀ digit ∈ right, digit.isDigit = true)
    (leftFirst : ∀ first ∈ left.head?, first ≠ '0') (rightFirst : ∀ first ∈ right.head?, first ≠ '0') :
    (compare left.length right.length).then (compare left right) =
      compare (Text.numeralValue left) (Text.numeralValue right) := by
  have shorter {short long : List Char} (fewer : short.length < long.length)
      (shortDigits : ∀ digit ∈ short, digit.isDigit = true)
      (longDigits : ∀ digit ∈ long, digit.isDigit = true)
      (longFirst : ∀ first ∈ long.head?, first ≠ '0') :
      Text.numeralValue short < Text.numeralValue long := by
    cases long with
    | nil => cases fewer
    | cons first rest =>
      have below := Text.numeralValue_lt shortDigits
      have above := @Text.pow_le_numeralValue first rest (longDigits first List.mem_cons_self)
        (longFirst first rfl)
      have power := Nat.pow_le_pow_right (n := 10) (by decide) (Nat.le_of_lt_succ fewer)
      omega
  rcases Nat.lt_trichotomy left.length right.length with fewer | same | more
  · rw [Nat.compare_eq_lt.mpr fewer,
      Nat.compare_eq_lt.mpr (shorter fewer leftDigits rightDigits rightFirst)]
    rfl
  · rw [Nat.compare_eq_eq.mpr same, Ordering.eq_then,
      Text.compare_numeralValue same leftDigits rightDigits]
  · rw [Nat.compare_eq_gt.mpr more,
      Nat.compare_eq_gt.mpr (shorter more rightDigits leftDigits leftFirst)]
    rfl

namespace Segment

/-- Numerals are ordered by value, and those of one value by their length. Zeros in front
are taken off before the digits are compared, and they count only when nothing else differs. -/
theorem order_numerals {left right : List Char} (leftDigits : left.all Char.isDigit = true)
    (rightDigits : right.all Char.isDigit = true) :
    (ofChars left).order (ofChars right) =
      (compare (Text.numeralValue left) (Text.numeralValue right)).then
        (compare left.length right.length) := by
  have inBody {row : List Char} (digits : row.all Char.isDigit = true) :
      ∀ digit ∈ row.dropWhile (· = '0'), digit.isDigit = true := fun digit member =>
    List.all_eq_true.mp digits digit ((List.dropWhile_sublist _).mem member)
  have bodyFirst (row : List Char) : ∀ first ∈ (row.dropWhile (· = '0')).head?, first ≠ '0' := by
    intro first member
    have stopped := List.head?_dropWhile_not (· = '0') row
    rw [Option.mem_def.mp member] at stopped
    simpa using stopped
  have parts (row : List Char) :
      (row.takeWhile (· = '0')).length + (row.dropWhile (· = '0')).length = row.length := by
    rw [← List.length_append, List.takeWhile_append_dropWhile]
  have values := compare_withoutZeros (inBody leftDigits) (inBody rightDigits) (bodyFirst left)
    (bodyFirst right)
  rw [Text.numeralValue_dropWhile_zero, Text.numeralValue_dropWhile_zero] at values
  have leftParts := parts left
  have rightParts := parts right
  simp only [ofChars, leftDigits, rightDigits, if_true, order,
    utf8ByteSize_digits (inBody leftDigits), utf8ByteSize_digits (inBody rightDigits),
    Text.compare_ofList]
  rw [← Ordering.then_assoc, values]
  -- Numerals of one value are as long as each other without their zeros.
  cases compared : compare (Text.numeralValue left) (Text.numeralValue right) with
  | lt => rfl
  | gt => rfl
  | eq =>
    rw [compared, Ordering.then_eq_eq] at values
    have same := Nat.compare_eq_eq.mp values.1
    rw [Ordering.eq_then, Ordering.eq_then]
    apply ordering_ext
    · rw [Nat.compare_eq_lt, Nat.compare_eq_lt]
      omega
    · rw [Nat.compare_eq_eq, Nat.compare_eq_eq]
      omega

/-- Segments are ordered as they are spelled: numerals by value and then by length, before
all words, and words as texts. -/
theorem order_ofChars (left right : List Char) :
    (ofChars left).order (ofChars right) =
      if left.all Char.isDigit then
        if right.all Char.isDigit then
          (compare (Text.numeralValue left) (Text.numeralValue right)).then
            (compare left.length right.length)
        else .lt
      else if right.all Char.isDigit then .gt
      else compare (String.ofList left) (String.ofList right) := by
  by_cases leftDigits : left.all Char.isDigit = true
  · by_cases rightDigits : right.all Char.isDigit = true
    · rw [if_pos leftDigits, if_pos rightDigits, order_numerals leftDigits rightDigits]
    · simp only [ofChars, if_pos leftDigits, if_neg rightDigits, order]
  · by_cases rightDigits : right.all Char.isDigit = true
    · simp only [ofChars, if_neg leftDigits, if_pos rightDigits, order]
    · simp only [ofChars, if_neg leftDigits, if_neg rightDigits, order]

/-- Only equal segments hold the same place. -/
instance : LawfulEqCmp order where
  eq_of_compare {left right} same := by
    cases left with
    | numeral zeros digits =>
      cases right with
      | numeral otherZeros otherDigits =>
        simp only [order, Ordering.then_eq_eq] at same
        rw [LawfulEqOrd.eq_of_compare same.2.1, LawfulEqOrd.eq_of_compare same.2.2]
      | word text => cases same
    | word text =>
      cases right with
      | numeral zeros digits => cases same
      | word other => rw [LawfulEqOrd.eq_of_compare (show compare text other = .eq from same)]

end Segment

/-- Whether a segment comes before another. -/
def Segment.Precedes (left right : Segment) : Prop :=
  left.order right = .lt

/-- Rows of segments are ordered by the first segments that differ, and a row that ends
earlier comes first. -/
theorem compareLex_eq_lt_iff {left right : List Segment} :
    left.compareLex Segment.order right = .lt ↔ List.Lex Segment.Precedes left right := by
  induction left generalizing right with
  | nil =>
    cases right with
    | nil => simp [List.compareLex_nil_nil]
    | cons other more => exact iff_of_true rfl .nil
  | cons first rest inductionHypothesis =>
    cases right with
    | nil => simp [List.compareLex_cons_nil]
    | cons other more =>
      rw [List.compareLex_cons_cons, Ordering.then_eq_lt, LawfulEqCmp.compare_eq_iff_eq,
        inductionHypothesis, List.cons_lex_cons_iff, Segment.Precedes]

namespace Semantic

/-- Whether a pre-release comes before another: a version that is no pre-release comes
after all its pre-releases. -/
def PrePrecedes (left right : List Segment) : Prop :=
  left ≠ [] ∧ (right = [] ∨ List.Lex Segment.Precedes left right)

/-- Whether a semantic version comes before another: by the first number in which they
differ, then by the pre-release, then by the build metadata. -/
inductive Precedes (left right : Semantic) : Prop
  | major (lower : left.major < right.major)
  | minor (major : left.major = right.major) (lower : left.minor < right.minor)
  | patch (major : left.major = right.major) (minor : left.minor = right.minor)
      (lower : left.patch < right.patch)
  | pre (major : left.major = right.major) (minor : left.minor = right.minor)
      (patch : left.patch = right.patch) (earlier : PrePrecedes left.pre right.pre)
  | build (major : left.major = right.major) (minor : left.minor = right.minor)
      (patch : left.patch = right.patch) (pre : left.pre = right.pre)
      (earlier : List.Lex Segment.Precedes left.build right.build)

/-- Only equal pre-releases hold the same place. -/
theorem preOrder_eq_eq_iff {left right : List Segment} :
    preOrder left right = .eq ↔ left = right := by
  cases left with
  | nil => cases right <;> simp [preOrder]
  | cons first rest =>
    cases right with
    | nil => simp [preOrder]
    | cons other more =>
      show (first :: rest).compareLex Segment.order (other :: more) = .eq ↔ _
      exact LawfulEqCmp.compare_eq_iff_eq

/-- Pre-releases are ordered as they precede each other. -/
theorem preOrder_eq_lt_iff {left right : List Segment} :
    preOrder left right = .lt ↔ PrePrecedes left right := by
  rw [PrePrecedes, ← compareLex_eq_lt_iff]
  cases left with
  | nil => cases right <;> simp [preOrder]
  | cons first rest =>
    cases right with
    | nil => simp [preOrder]
    | cons other more => simp [preOrder]

/-- Only equal semantic versions hold the same place. -/
theorem order_eq_iff (left right : Semantic) : left.order right = .eq ↔ left = right := by
  constructor
  · obtain ⟨major, minor, patch, pre, build⟩ := left
    obtain ⟨otherMajor, otherMinor, otherPatch, otherPre, otherBuild⟩ := right
    simp only [order, Ordering.then_eq_eq, preOrder_eq_eq_iff,
      LawfulEqCmp.compare_eq_iff_eq]
    rintro ⟨rfl, rfl, rfl, rfl, rfl⟩
    rfl
  · rintro rfl
    exact order_self left

/-- Semantic versions are ordered as they precede each other. The parts are compared in
order, and a version precedes another one by the first part in which they differ. -/
theorem order_eq_lt_iff (left right : Semantic) :
    left.order right = .lt ↔ left.Precedes right := by
  simp only [order, Ordering.then_eq_lt, Nat.compare_eq_lt, Nat.compare_eq_eq, preOrder_eq_lt_iff,
    preOrder_eq_eq_iff, compareLex_eq_lt_iff]
  constructor
  · rintro (lower | ⟨major, lower | ⟨minor, lower | ⟨patch, earlier | ⟨pre, earlier⟩⟩⟩⟩)
    · exact .major lower
    · exact .minor major lower
    · exact .patch major minor lower
    · exact .pre major minor patch earlier
    · exact .build major minor patch pre earlier
  · intro before
    cases before with
    | major lower => exact .inl lower
    | minor major lower => exact .inr ⟨major, .inl lower⟩
    | patch major minor lower => exact .inr ⟨major, .inr ⟨minor, .inl lower⟩⟩
    | pre major minor patch earlier =>
      exact .inr ⟨major, .inr ⟨minor, .inr ⟨patch, .inl earlier⟩⟩⟩
    | build major minor patch pre earlier =>
      exact .inr ⟨major, .inr ⟨minor, .inr ⟨patch, .inr ⟨pre, earlier⟩⟩⟩⟩

end Semantic

/-- A version is what its text is read as. -/
theorem ofText_text (version : Version) : ofText version.text = version := by
  apply ext_text
  rw [text_ofText, Text.trim, version.trimmed, String.ofList_toList]

open EventSieve.Filter (Domain ElementSet)

/-- The set of the versions that texts denote. -/
def setOf (texts : List String) : ElementSet .version :=
  ElementSet.ofList (texts.map ofText)

/-- No two versions of a set have one text. -/
theorem nodup_texts (set : ElementSet .version) : (set.toList.map text).Nodup := by
  refine List.pairwise_map.mpr (set.ascending.pairwise.imp ?_)
  intro first second before same
  rw [@ext_text first second same, Domain.not_precedes_self] at before
  cases before

/-- The versions of a set have the trimmed texts that they were made of. -/
theorem mem_texts_setOf (texts : List String) (spelling : String) :
    spelling ∈ (setOf texts).toList.map text ↔ spelling ∈ texts.map Text.trim := by
  have members (version : Version) : version ∈ (setOf texts).toList ↔ version ∈ texts.map ofText :=
    @ElementSet.mem_ofList .version (texts.map ofText) version
  constructor
  · intro inside
    obtain ⟨version, own, rfl⟩ := List.mem_map.mp inside
    obtain ⟨original, member, rfl⟩ := List.mem_map.mp ((members version).mp own)
    exact List.mem_map.mpr ⟨original, member, rfl⟩
  · intro inside
    obtain ⟨original, member, rfl⟩ := List.mem_map.mp inside
    have own := (members (ofText original)).mpr (List.mem_map.mpr ⟨original, member, rfl⟩)
    exact List.mem_map.mpr ⟨_, own, rfl⟩

/-- Every version is read off its text. The order of versions is total, and only versions of
the same trimmed text hold the same place in it. Semantic forms come before missing ones and
decide by their own order, which tells them apart and is that of their numbers, pre-releases
and build metadata; equal forms, and missing ones, leave it to the texts. A set of versions
has one element for each trimmed text among them.

Proof: the order is a chain of comparisons, of whether there is a form, of the forms, and of
the texts, and each of them is total. Versions of one text are the same version, as the form
is read off the text. Segments of pre-releases and build metadata are compared as numbers or
as texts, and these comparisons are equal for equal segments only. A set is built by this
order. -/
theorem ordered_by_form_then_text :
    (∀ version : Version, ofText version.text = version) ∧
    (∀ version : Version, version.order version = .eq) ∧
    (∀ left right : Version, (left.order right).isLE ∨ (right.order left).isLE) ∧
    (∀ left right : Version, (left.order right).isLE → (right.order left).isLE → left = right) ∧
    (∀ first second third : Version,
      (first.order second).isLE → (second.order third).isLE → (first.order third).isLE) ∧
    (∀ left right : String,
      (ofText left).order (ofText right) = .eq ↔ Text.trim left = Text.trim right) ∧
    (∀ left right : Version, left.semantic.isSome → right.semantic.isNone →
      left.order right = .lt) ∧
    (∀ (left right : Version) (form other : Semantic), left.semantic = some form →
      right.semantic = some other → form.order other = .lt → left.order right = .lt) ∧
    (∀ left right : Version, left.semantic = right.semantic →
      left.order right = compare left.text right.text) ∧
    (∀ form other : Semantic, form.order other = .eq ↔ form = other) ∧
    (∀ form other : Semantic, form.order other = .lt ↔ form.Precedes other) ∧
    (∀ left right : List Char, (Segment.ofChars left).order (Segment.ofChars right) =
      if left.all Char.isDigit then
        if right.all Char.isDigit then
          (compare (Text.numeralValue left) (Text.numeralValue right)).then
            (compare left.length right.length)
        else .lt
      else if right.all Char.isDigit then .gt
      else compare (String.ofList left) (String.ofList right)) ∧
    ∀ texts : List String, ((setOf texts).toList.map text).Nodup ∧
      ∀ spelling, spelling ∈ (setOf texts).toList.map text ↔ spelling ∈ texts.map Text.trim := by
  refine ⟨ofText_text, ?_, ?_, ?_, ?_, ?_, ?_, ?_, ?_, Semantic.order_eq_iff,
    Semantic.order_eq_lt_iff, Segment.order_ofChars, ?_⟩
  · intro version
    exact (order_eq_iff version version).mpr rfl
  · intro left right
    rw [order_swap left right]
    cases left.order right with
    | lt => exact .inl rfl
    | eq => exact .inl rfl
    | gt => exact .inr rfl
  · intro left right before after
    rw [order_swap left right] at after
    apply (order_eq_iff left right).mp
    cases compared : left.order right with
    | lt =>
      rw [compared] at after
      cases after
    | eq => rfl
    | gt =>
      rw [compared] at before
      cases before
  · intro first second third before after
    exact Std.TransCmp.isLE_trans before after
  · intro left right
    rw [order_eq_iff]
    constructor
    · intro same
      exact congrArg text same
    · intro same
      exact ext_text same
  · intro left right present missing
    obtain ⟨form, own⟩ := Option.isSome_iff_exists.mp present
    simp only [order, own, Option.isNone_iff_eq_none.mp missing]
  · intro left right form other own theirs before
    simp only [order, own, theirs, before, Ordering.lt_then]
  · intro left right same
    cases own : right.semantic with
    | none => simp only [order, same, own]
    | some form => simp only [order, same, own, Semantic.order_self, Ordering.eq_then]
  · intro texts
    exact ⟨nodup_texts _, mem_texts_setOf texts⟩

end EventSieve.Version
