import EventSieve.Filter.ElementSet
import EventSieve.Proofs.Filter.Order
import Mathlib

/-!
# A set is known by its values

A set keeps its values in ascending order, and the order of values is transitive, so
every value comes before all later ones. Two sets with the same values are therefore
equal, and the set that is built of a list has exactly the values of the list: sorting
loses none, and a value is left out only when it is the one kept last.
-/

namespace EventSieve.Filter

variable {domain : Domain}

/-- What comes before a value that comes before a third comes before the third. -/
theorem Domain.precedes_trans {first second third : domain.Carrier}
    (before : domain.precedes first second = true) (later : domain.precedes second third = true) :
    domain.precedes first third = true := by
  simp only [Domain.precedes, beq_iff_eq] at *
  exact Std.TransCmp.lt_trans before later

/-- No value comes before itself. -/
theorem Domain.not_precedes_self (value : domain.Carrier) : domain.precedes value value = false := by
  rw [Domain.precedes, (domain.order_eq_iff value value).mpr rfl]
  rfl

/-- A value that does not come after another comes before it or is the same. -/
theorem Domain.precedes_or_eq {first second : domain.Carrier}
    (ordered : domain.upTo first second = true) :
    domain.precedes first second = true ∨ first = second := by
  simp only [Domain.upTo, Domain.precedes, bne_iff_ne, beq_iff_eq, ne_eq] at *
  cases order : domain.order first second with
  | lt => exact Or.inl rfl
  | eq => exact Or.inr ((domain.order_eq_iff first second).mp order)
  | gt => exact absurd order ordered

/-- In an ascending list every value comes before all later ones. -/
theorem Ascending.pairwise {values : List domain.Carrier} (ascending : Ascending domain values) :
    values.Pairwise fun first second => domain.precedes first second = true := by
  induction values with
  | nil => exact .nil
  | cons value rest inductionHypothesis =>
    cases rest with
    | nil => exact List.pairwise_singleton _ value
    | cons next more =>
      obtain ⟨before, later⟩ := ascending
      have others := inductionHypothesis later
      refine .cons ?_ others
      intro other member
      rcases List.mem_cons.mp member with rfl | behind
      · exact before
      · exact Domain.precedes_trans before (List.rel_of_pairwise_cons others behind)

namespace ElementSet

/-- Sets with the same values are equal. -/
theorem ext_mem {left right : ElementSet domain}
    (same : ∀ value, value ∈ left.toList ↔ value ∈ right.toList) : left = right := by
  have irreflexive : Std.Irrefl fun first second => domain.precedes first second = true :=
    ⟨fun value before => by rw [Domain.not_precedes_self] at before; cases before⟩
  have antisymmetric : Std.Antisymm fun first second => domain.precedes first second = true := by
    refine ⟨fun first second before after => ?_⟩
    have itself := Domain.precedes_trans before after
    rw [Domain.not_precedes_self] at itself
    cases itself
  exact ext_toList (left.ascending.pairwise.eq_of_mem_iff right.ascending.pairwise same)

/-- Of a sorted list no value is lost by keeping what comes after the last one kept. -/
theorem mem_keepAscending {last : domain.Carrier} {values : List domain.Carrier}
    (sorted : (last :: values).Pairwise fun first second => domain.upTo first second = true)
    (value : domain.Carrier) :
    value ∈ last :: keepAscending domain last values ↔ value ∈ last :: values := by
  induction values generalizing last with
  | nil => rfl
  | cons next rest inductionHypothesis =>
    obtain ⟨first, later⟩ := List.pairwise_cons.mp sorted
    simp only [keepAscending]
    split
    · rw [List.mem_cons, inductionHypothesis later, ← List.mem_cons]
    · rename_i behind
      have same : last = next :=
        (Domain.precedes_or_eq (first next List.mem_cons_self)).resolve_left behind
      subst same
      rw [inductionHypothesis later]
      simp

/-- The set of a list has the values of the list. Sorting keeps the members, and only a
value that is the same as its neighbour is dropped, which in an ascending list loses none. -/
theorem mem_ofList (values : List domain.Carrier) (value : domain.Carrier) :
    value ∈ (ofList values).toList ↔ value ∈ values := by
  have transitive (first second third : domain.Carrier) (before : domain.upTo first second = true)
      (later : domain.upTo second third = true) : domain.upTo first third = true := by
    simp only [Domain.upTo, bne_iff_ne, ne_eq, ← Ordering.isLE_iff_ne_gt] at *
    exact Std.TransCmp.isLE_trans before later
  have total (first second : domain.Carrier) :
      (domain.upTo first second || domain.upTo second first) = true := by
    simp only [Domain.upTo, domain.order_swap first second]
    cases domain.order first second <;> rfl
  have sorted := List.pairwise_mergeSort transitive total values
  have members : value ∈ values.mergeSort domain.upTo ↔ value ∈ values := List.mem_mergeSort
  rw [← members, ofList]
  split
  · rename_i none
    rw [none]
    rfl
  · rename_i first rest some
    rw [some] at sorted ⊢
    exact mem_keepAscending sorted value

/-- A set is built of its values in any order and with any repetitions. -/
theorem ofList_eq {set : ElementSet domain} {values : List domain.Carrier}
    (same : ∀ value, value ∈ values ↔ value ∈ set.toList) : ofList values = set :=
  ext_mem fun value => (mem_ofList values value).trans (same value)

end ElementSet

end EventSieve.Filter
