import EventSieve.Proofs.Filter.Order
import EventSieve.Proofs.Number.IntegerOrder
import EventSieve.Proofs.Time.InstantOrder

/-!
# The order of values as texts

A domain without an order of its own is taken to be ordered as the texts of its
values are. Texts are; integers and instants are not. Two of them whose texts are
in another order are misordered, and their texts are then in the contrary order.
-/

namespace EventSieve.Filter.Domain

/-- Whether the texts of two values are in another order than the values, in a domain
that is taken to be ordered as they are. Texts are in the order of themselves, and
versions have an order of their own and are not compared as texts, so there are no such
pairs among them. -/
def Misorders : (domain : Domain) → domain.Carrier → domain.Carrier → Prop
  | .text | .version => fun _ _ => False
  | .integer => fun left right => Number.IntegersMisplaced left.toInt right.toInt
  | .instant => Time.Instant.Misplaced

instance (domain : Domain) (left right : domain.Carrier) : Decidable (domain.Misorders left right) :=
  match domain with
  | .text | .version => inferInstanceAs (Decidable False)
  | .integer => inferInstanceAs (Decidable (Number.IntegersMisplaced _ _))
  | .instant => inferInstanceAs (Decidable (Time.Instant.Misplaced _ _))

/-- Integers of 64 bits compare as integers. -/
theorem compare_toInt (left right : Int64) : compare left.toInt right.toInt = compare left right := by
  apply ordering_ext
  · rw [Int.compare_eq_lt, ← Int64.lt_iff_toInt_lt]
    exact compareOfLessAndEq_eq_lt.symm
  · rw [Int.compare_eq_eq, Int64.toInt_inj]
    exact Std.LawfulEqCmp.compare_eq_iff_eq.symm

/-- The texts of values compare as the values do unless these are misordered; then
they compare the other way. -/
theorem compare_display (domain : Domain) (plain : domain.ownOrder = false)
    (left right : domain.Carrier) :
    compare (domain.display left) (domain.display right) =
      if domain.Misorders left right then domain.order right left else domain.order left right := by
  cases domain with
  | text => exact (if_neg not_false).symm
  | integer =>
    have texts := Number.compare_integerText left.toInt right.toInt
    rw [compare_toInt, compare_toInt] at texts
    exact texts
  | version => cases plain
  | instant => exact Time.Instant.compare_text left right

/-- No value is misordered against itself. -/
theorem not_misorders_self (domain : Domain) (value : domain.Carrier) :
    ¬ domain.Misorders value value := by
  cases domain with
  | text | version => exact not_false
  | integer =>
    rintro (⟨_, _, ⟨smaller, _⟩ | ⟨smaller, _⟩⟩ | ⟨_, _, different, _⟩)
    · exact Nat.lt_irrefl _ smaller
    · exact Nat.lt_irrefl _ smaller
    · exact different rfl
  | instant =>
    rintro (years | ⟨_, ⟨fewer, _⟩ | ⟨fewer, _⟩⟩)
    · exact Time.Instant.not_yearsMisplaced_self _ years
    · exact Nat.lt_irrefl _ fewer
    · exact Nat.lt_irrefl _ fewer

/-- Misordered values do not hold the same place. -/
theorem order_ne_eq_of_misorders (domain : Domain) {left right : domain.Carrier}
    (turned : domain.Misorders left right) : domain.order left right ≠ .eq := by
  rw [ne_eq, order_eq_iff]
  rintro rfl
  exact not_misorders_self domain left turned

/-- Different values have different texts. -/
theorem display_injective (domain : Domain) {left right : domain.Carrier}
    (same : domain.display left = domain.display right) : left = right := by
  cases domain with
  | version => exact Version.ext_text same
  | text => exact same
  | integer | instant =>
    apply (order_eq_iff _ left right).mp
    have equal : compare (display _ left) (display _ right) = .eq :=
      Std.LawfulEqCmp.compare_eq_iff_eq.mpr same
    rw [compare_display _ rfl] at equal
    split at equal
    · rw [order_swap, equal]
      rfl
    · exact equal

/-- A value comes before another as its text does exactly when the two are not
misordered. -/
theorem order_eq_lt_iff_display (domain : Domain) (plain : domain.ownOrder = false)
    (left right : domain.Carrier) :
    (domain.order left right = .lt ↔
      compare (domain.display left) (domain.display right) = .lt) ↔
        ¬ domain.Misorders left right := by
  rw [compare_display domain plain]
  by_cases turned : domain.Misorders left right
  · have apart := order_ne_eq_of_misorders domain turned
    rw [if_pos turned, order_swap domain left right]
    refine iff_of_false ?_ fun placed => placed turned
    cases found : domain.order left right with
    | lt => decide
    | eq => exact absurd found apart
    | gt => decide
  · rw [if_neg turned]
    exact iff_of_true Iff.rfl turned

/-- The text of a value does not come after another when the value does not, unless
the two are misordered; then exactly when the value does. -/
theorem upTo_display (domain : Domain) (plain : domain.ownOrder = false)
    (left right : domain.Carrier) :
    Domain.text.upTo (domain.display left) (domain.display right) =
      (domain.upTo left right ^^ decide (domain.Misorders left right)) := by
  have texts : Domain.text.upTo (domain.display left) (domain.display right) =
      (compare (domain.display left) (domain.display right) != .gt) := rfl
  rw [texts, compare_display domain plain, upTo]
  by_cases turned : domain.Misorders left right
  · have apart := order_ne_eq_of_misorders domain turned
    rw [if_pos turned, decide_eq_true turned, order_swap domain left right]
    cases found : domain.order left right with
    | lt => rfl
    | eq => exact absurd found apart
    | gt => rfl
  · rw [if_neg turned, decide_eq_false turned, Bool.xor_false]

end EventSieve.Filter.Domain
