import EventSieve.Filter.Domain

/-!
# The orders of filter values

In every domain two values hold the same place in the order only when they are
equal: versions with one semantic form are told apart by their texts, and a text
has one version. The order of two values turned around is the other way, and it is
transitive: an order that looks at one part after the other, or sets some values
apart from all others first, is that of its parts.
-/

namespace EventSieve

open EventSieve.Filter (Domain)
open Std (LawfulEqOrd OrientedCmp OrientedOrd ReflCmp TransCmp TransOrd)

/-- An order of parts is a transitive order of the whole. -/
theorem transCmp_on {Whole Part : Type} (order : Part → Part → Ordering) [TransCmp order]
    (part : Whole → Part) : TransCmp fun left right => order (part left) (part right) where
  eq_swap := OrientedCmp.eq_swap
  isLE_trans := TransCmp.isLE_trans

namespace Version

instance : ReflCmp Segment.order where
  compare_self {segment} := by
    cases segment with
    | numeral zeros digits => simp [Segment.order]
    | word text => simp [Segment.order]

/-- The order of a semantic version with itself. -/
theorem Semantic.order_self (version : Semantic) : version.order version = .eq := by
  have same (segments : List Segment) : segments.compareLex Segment.order segments = .eq :=
    ReflCmp.compare_self
  have pre : preOrder version.pre version.pre = .eq := by
    cases version.pre with
    | nil => rfl
    | cons first rest => exact same (first :: rest)
  simp [order, pre, same]

instance : OrientedCmp Segment.order where
  eq_swap {left right} := by
    cases left with
    | numeral zeros digits =>
      cases right with
      | numeral otherZeros otherDigits =>
        simp only [Segment.order, Ordering.swap_then, ← OrientedOrd.eq_swap]
      | word text => rfl
    | word text =>
      cases right with
      | numeral zeros digits => rfl
      | word other => exact OrientedOrd.eq_swap

/-- The order of semantic versions turned around. -/
theorem Semantic.order_swap (left right : Semantic) :
    right.order left = (left.order right).swap := by
  have segments (first second : List Segment) :
      second.compareLex Segment.order first = (first.compareLex Segment.order second).swap :=
    OrientedCmp.eq_swap
  have pre : preOrder right.pre left.pre = (preOrder left.pre right.pre).swap := by
    cases left.pre with
    | nil =>
      cases right.pre with
      | nil => rfl
      | cons first rest => rfl
    | cons first rest =>
      cases right.pre with
      | nil => rfl
      | cons other more => exact segments (first :: rest) (other :: more)
  simp only [order, Ordering.swap_then, ← OrientedOrd.eq_swap, pre, segments left.build]

/-- Whether a segment is a word. -/
def Segment.isWord : Segment → Bool
  | .numeral _ _ => false
  | .word _ => true

/-- The number of digits of a numeral without its zeros. -/
def Segment.size : Segment → Nat
  | .numeral _ digits => digits.utf8ByteSize
  | .word _ => 0

/-- The zeros in front of a numeral. -/
def Segment.zeros : Segment → Nat
  | .numeral zeros _ => zeros
  | .word _ => 0

/-- The text of a segment without the zeros in front of a numeral. -/
def Segment.body : Segment → String
  | .numeral _ digits => digits
  | .word text => text

/-- Segments are ordered by their kind, then part by part. -/
theorem Segment.order_eq :
    Segment.order = compareLex (compareOn isWord)
      (compareLex (compareOn size) (compareLex (compareOn body) (compareOn zeros))) := by
  funext left right
  cases left with
  | numeral zeros digits =>
    cases right with
    | numeral otherZeros otherDigits => rfl
    | word text => rfl
  | word text =>
    cases right with
    | numeral zeros digits => rfl
    | word other => simp [order, compareLex, compareOn, isWord, size, body, zeros]

instance : TransCmp Segment.order := by
  rw [Segment.order_eq]
  infer_instance

/-- Pre-releases are ordered as rows of segments, but none at all comes last. -/
theorem Semantic.preOrder_eq :
    preOrder = compareLex (compareOn List.isEmpty) (List.compareLex Segment.order) := by
  funext left right
  cases left <;> cases right <;> rfl

/-- The order of semantic versions is transitive. -/
instance : TransCmp Semantic.order := by
  have pre : TransCmp Semantic.preOrder := by
    rw [Semantic.preOrder_eq]
    infer_instance
  have ownPre := transCmp_on Semantic.preOrder Semantic.pre
  have ownBuild := transCmp_on (List.compareLex Segment.order) Semantic.build
  exact (inferInstance : TransCmp (compareLex (compareOn Semantic.major)
    (compareLex (compareOn Semantic.minor) (compareLex (compareOn Semantic.patch)
      (compareLex (fun left right => Semantic.preOrder left.pre right.pre)
        fun left right => left.build.compareLex Segment.order right.build)))))

/-- The order of versions turned around. -/
theorem order_swap (left right : Version) : right.order left = (left.order right).swap := by
  cases first : left.semantic with
  | none =>
    cases second : right.semantic with
    | none =>
      simp only [order, first, second]
      exact OrientedOrd.eq_swap
    | some other => simp [order, first, second]
  | some own =>
    cases second : right.semantic with
    | none => simp [order, first, second]
    | some other =>
      simp only [order, first, second, Ordering.swap_then, Semantic.order_swap own other,
        ← OrientedOrd.eq_swap]

/-- Versions hold the same place exactly when they are equal. -/
theorem order_eq_iff (left right : Version) : left.order right = .eq ↔ left = right := by
  constructor
  · intro same
    apply ext_text
    cases first : left.semantic with
    | none =>
      cases second : right.semantic with
      | none =>
        simp only [order, first, second] at same
        exact LawfulEqOrd.eq_of_compare same
      | some other => simp [order, first, second] at same
    | some own =>
      cases second : right.semantic with
      | none => simp [order, first, second] at same
      | some other =>
        simp only [order, first, second, Ordering.then_eq_eq] at same
        exact LawfulEqOrd.eq_of_compare same.2
  · rintro rfl
    cases own : left.semantic with
    | none => simp [order, own]
    | some semantic => simp [order, own, Semantic.order_self]

/-- Versions are ordered by whether they have a semantic form, then by this form, then by
their texts. -/
theorem order_eq_compareLex (blank : Semantic) :
    Version.order = compareLex (compareOn fun version => version.semantic.isNone)
      (compareLex (fun left right => (left.semantic.getD blank).order (right.semantic.getD blank))
        (compareOn text)) := by
  funext left right
  cases first : left.semantic with
  | none =>
    cases second : right.semantic with
    | none => simp [order, first, second, compareLex, compareOn, Semantic.order_self]
    | some other =>
      simp only [order, first, second, compareLex, compareOn]
      rfl
  | some own =>
    cases second : right.semantic with
    | none =>
      simp only [order, first, second, compareLex, compareOn]
      rfl
    | some other => simp [order, first, second, compareLex, compareOn]

/-- The order of versions is transitive. -/
instance : TransCmp Version.order := by
  rw [order_eq_compareLex ⟨0, 0, 0, [], []⟩]
  have own := transCmp_on Semantic.order fun version : Version =>
    version.semantic.getD ⟨0, 0, 0, [], []⟩
  infer_instance

end Version

/-- Instants hold the same place exactly when they are equal. -/
theorem Time.Instant.order_eq_iff (left right : Time.Instant) :
    left.order right = .eq ↔ left = right := by
  obtain ⟨seconds, nanos, valid⟩ := left
  obtain ⟨otherSeconds, otherNanos, otherValid⟩ := right
  simp [order, Ordering.then_eq_eq]

/-- The order of instants turned around. -/
theorem Time.Instant.order_swap (left right : Time.Instant) :
    right.order left = (left.order right).swap := by
  rw [order, order, Ordering.swap_then, ← OrientedOrd.eq_swap, ← OrientedOrd.eq_swap]

namespace Filter.Domain

/-- Values of a domain hold the same place exactly when they are equal. Versions with the
same semantic form are still told apart by their texts, so no two of them are taken for one
another. A version is read off its text, so it is enough that the texts are equal. -/
theorem order_eq_iff (domain : Domain) (left right : domain.Carrier) :
    domain.order left right = .eq ↔ left = right := by
  cases domain with
  | text => exact @Std.LawfulEqCmp.compare_eq_iff_eq String compare _ left right
  | integer => exact @Std.LawfulEqCmp.compare_eq_iff_eq Int64 compare _ left right
  | version => exact Version.order_eq_iff left right
  | instant => exact Time.Instant.order_eq_iff left right

/-- A value is in the same place as another exactly when it is that value. -/
theorem same_iff (domain : Domain) (left right : domain.Carrier) :
    domain.same left right = true ↔ left = right := by
  rw [same, beq_iff_eq, order_eq_iff]

/-- The order of values turned around. -/
theorem order_swap (domain : Domain) (left right : domain.Carrier) :
    domain.order right left = (domain.order left right).swap := by
  cases domain with
  | text => exact OrientedOrd.eq_swap (α := String)
  | integer => exact OrientedOrd.eq_swap (α := Int64)
  | version => exact Version.order_swap left right
  | instant => exact Time.Instant.order_swap left right

/-- The order of values is transitive. -/
instance transCmp (domain : Domain) : TransCmp domain.order := by
  cases domain with
  | text => exact (inferInstance : TransOrd String)
  | integer => exact (inferInstance : TransOrd Int64)
  | version => exact (inferInstance : TransCmp Version.order)
  | instant =>
    exact (inferInstance : TransCmp
      (compareLex (compareOn Time.Instant.seconds) (compareOn Time.Instant.nanos)))

/-- A value that comes before the first of two ordered ones does not come after the
second. -/
theorem upTo_of_not_upTo {domain : Domain} {lower upper value : domain.Carrier}
    (ordered : domain.order lower upper ≠ .gt) (below : domain.upTo lower value = false) :
    domain.upTo value upper = true := by
  have before : (domain.order value lower).isLE = true := by
    rw [domain.order_swap lower value]
    simp only [upTo, bne_eq_false_iff_eq] at below
    rw [below]
    rfl
  have within := TransCmp.isLE_trans before (Ordering.isLE_iff_ne_gt.mpr ordered)
  simpa [upTo] using Ordering.isLE_iff_ne_gt.mp within

end Filter.Domain

end EventSieve
