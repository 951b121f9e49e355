import EventSieve.Proofs.Time.SpanText

/-!
# The sign of a written span

The text of a span starts with a minus sign exactly when the microseconds that are written
are negative: then so is the number of days in front of the clock, and a clock has no sign.

These are the microseconds of the span, rounded toward zero, as long as they fit 64 bits.
All other spans are written as the greatest number that fits, forward ones and backward
ones alike. So the sign is that of the span unless the span goes back by more microseconds
than `2 ^ 63`.
-/

namespace EventSieve.Time.Span

/-- The text of an integer starts with a minus sign exactly when it is negative. -/
theorem head_integerText (value : Int) :
    (Number.integerText value).toList.head? = some '-' ↔ value < 0 := by
  simp only [Number.integerText, String.toList_ofList]
  split
  · rename_i negative
    exact iff_of_true rfl negative
  · rename_i positive
    refine iff_of_false ?_ positive
    intro starts
    have digit := Text.isDigit_of_mem_decimalChars (List.mem_of_mem_head? starts)
    cases digit

/-- The text of a span starts with a minus sign exactly when its days are negative. -/
theorem head_text (span : Span) :
    span.text.toList.head? = some '-' ↔ span.micros / microsPerDay < 0 := by
  rw [text, String.toList_ofList, dayChars]
  split
  · rename_i none
    obtain ⟨digit, more, spelled, inside⟩ :=
      exists_clockChars_cons (span.micros % microsPerDay).toNat
    rw [none, List.nil_append, spelled, List.head?_cons]
    refine iff_of_false ?_ (Int.lt_irrefl 0)
    rintro ⟨⟩
    cases inside
  · rw [List.append_assoc, List.head?_append_of_ne_nil _ (integerText_ne_nil _)]
    exact head_integerText _

/-- Days that are rounded down are negative exactly when the microseconds are. -/
theorem days_neg_iff (micros : Int) : micros / microsPerDay < 0 ↔ micros < 0 := by
  rw [microsPerDay]
  omega

/-- Rounded toward zero, the microseconds of a span are negative from one microsecond
backward on. -/
theorem tdiv_neg_iff (span : Span) : span.nanos.tdiv 1000 < 0 ↔ span.nanos ≤ -1000 := by
  have forward : Int.sign 1000 = 1 := rfl
  rw [Int.tdiv_eq_ediv, forward]
  split <;> omega

/-- The microseconds that are written for a span are negative when its own are and fit 64
bits. -/
theorem micros_neg_iff (span : Span) :
    span.micros < 0 ↔
      span.nanos ≤ -1000 ∧ -(Number.int64Bound : Int) ≤ span.nanos.tdiv 1000 := by
  have bound : Number.int64Bound = 2 ^ 63 := by decide
  rw [← tdiv_neg_iff]
  generalize rounded : span.nanos.tdiv 1000 = exact
  simp only [micros, rounded]
  split
  · rename_i fits
    rw [Number.isInt64, Bool.and_eq_true, decide_eq_true_eq] at fits
    rw [and_iff_left fits.1]
  · rename_i large
    rw [Number.isInt64, Bool.and_eq_true, decide_eq_true_eq, decide_eq_true_eq] at large
    omega

/-- The text of a span starts with a minus sign just when the span goes back by a
microsecond or more, if and only if it does not go back by more microseconds than `2 ^ 63`.

Proof: the text begins with the sign of the days if there are any, and else with a digit of
the clock. Days and clock come from the length in microseconds, which is the greatest one
where it does not fit 64 bits. So the sign is that of the length, unless the length is below
the least such number. -/
theorem minus_is_direction_iff (span : Span) :
    (span.text.toList.head? = some '-' ↔ span.nanos ≤ -1000) ↔
      -(Number.int64Bound : Int) ≤ span.nanos.tdiv 1000 := by
  have bound : Number.int64Bound = 2 ^ 63 := by decide
  rw [head_text, days_neg_iff, micros_neg_iff, ← tdiv_neg_iff]
  omega

/-- Two hundred million days backward, which are more microseconds than fit 64 bits. -/
def farBack : Span :=
  ⟨-17280000000000000000000, by decide⟩

/-- Two hundred million days backward are read, and written as the greatest number of
microseconds forward. -/
theorem minus_is_lost_far_back :
    ofText? "-200000000 days, 0:00:00" = some farBack ∧ farBack.nanos ≤ -1000 ∧
      farBack.text = "106751991 days, 4:00:54.775807" ∧
      ¬ (farBack.text.toList.head? = some '-' ↔ farBack.nanos ≤ -1000) := by
  have written : farBack.text = "106751991 days, 4:00:54.775807" := by decide +kernel
  refine ⟨by decide +kernel, by decide, written, ?_⟩
  rw [written]
  decide +kernel

end EventSieve.Time.Span
