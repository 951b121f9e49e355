import EventSieve.Clause.Identifier
import EventSieve.Clause.FreshName
import EventSieve.Proofs.Clause.Token

/-!
# Fresh names are new, and can be read as names

The search for a name goes through candidates with growing numbers, and different
numbers give different candidates. Among one candidate more than there are names
in use, one is therefore free, and the search stops at the first of them.

A name that is made from a column can be read as the name of a parameter: it is
never empty, starts with no digit, and has ASCII letters, digits and underscores
only. Putting a suffix or a number behind it keeps it so.
-/

namespace EventSieve.Clause

/-- A numbered name is its base, an underscore and the number in decimal. -/
theorem toList_numbered (base : String) (number : Nat) :
    (numbered base number).toList = base.toList ++ '_' :: Text.decimalChars number := by
  simp [numbered, Number.integerText]

/-- Different numbers behind one base give different names. -/
theorem numbered_injective (base : String) {left right : Nat}
    (same : numbered base left = numbered base right) : left = right := by
  have lists := congrArg String.toList same
  rw [toList_numbered, toList_numbered] at lists
  have digits : Text.decimalChars left = Text.decimalChars right :=
    (List.cons.inj (List.append_cancel_left lists)).2
  have values := congrArg Text.numeralValue digits
  rwa [Text.numeralValue_decimalChars, Text.numeralValue_decimalChars] at values

/-- The search gives the first candidate that is not in use, or the last one when all before
it are in use. The induction is on the candidates that are still allowed. One that is in use
leaves the search for the rest to a number further on, and the first one that is not ends
it. -/
theorem searchFresh_spec (used : List String) (base : String) (more number : Nat) :
    ∃ steps ≤ more, searchFresh used base more number = numbered base (number + steps) ∧
      (∀ earlier < steps, numbered base (number + earlier) ∈ used) ∧
      (steps < more → numbered base (number + steps) ∉ used) := by
  induction more generalizing number with
  | zero => exact ⟨0, Nat.le_refl 0, rfl, by simp, by simp⟩
  | succ more inductionHypothesis =>
    by_cases taken : numbered base number ∈ used
    · obtain ⟨steps, within, found, before, free⟩ := inductionHypothesis (number + 1)
      have shift (offset : Nat) : number + 1 + offset = number + (offset + 1) := by omega
      refine ⟨steps + 1, Nat.succ_le_succ within, ?_, ?_, ?_⟩
      · rw [searchFresh, if_pos (by simpa using taken), found, shift]
      · intro earlier bound
        cases earlier with
        | zero => exact taken
        | succ earlier => rw [← shift]; exact before earlier (by omega)
      · intro bound
        rw [← shift]
        exact free (by omega)
    · refine ⟨0, Nat.zero_le _, ?_, by simp, fun _ => taken⟩
      rw [searchFresh, if_neg (by simpa using taken)]
      rfl

/-- Different candidates that are all in use are no more than the names in use. -/
theorem count_le_of_used {used : List String} {candidate : Nat → String} {count : Nat}
    (distinct : ∀ left right, candidate left = candidate right → left = right)
    (all : ∀ place < count, candidate place ∈ used) : count ≤ used.length := by
  have nodup : ((List.range count).map candidate).Nodup := by
    refine List.pairwise_map.mpr (List.nodup_range.imp ?_)
    intro left right different same
    exact different (distinct left right same)
  have inside : (List.range count).map candidate ⊆ used := by
    intro name member
    obtain ⟨place, bound, rfl⟩ := List.mem_map.mp member
    exact all place (List.mem_range.mp bound)
  have many := nodup.length_le_of_subset inside
  rwa [List.length_map, List.length_range] at many

/-- A search that may try as many candidates as there are names in use, and one
more, finds a name that is not in use. -/
theorem searchFresh_not_mem (used : List String) (base : String) (number : Nat) :
    searchFresh used base used.length number ∉ used := by
  obtain ⟨steps, within, found, before, free⟩ := searchFresh_spec used base used.length number
  rw [found]
  by_cases early : steps < used.length
  · exact free early
  · intro last
    have distinct : ∀ left right,
        numbered base (number + left) = numbered base (number + right) → left = right :=
      fun left right same => Nat.add_left_cancel (numbered_injective base same)
    have all : ∀ offset < used.length + 1, numbered base (number + offset) ∈ used := by
      intro offset bound
      by_cases strict : offset < steps
      · exact before offset strict
      · have equal : offset = steps := by omega
        exact equal ▸ last
    have many := count_le_of_used distinct all
    omega

/-- A fresh name is not in use. -/
theorem freshName_not_mem (used : List String) (base : String) : freshName used base ∉ used := by
  rw [freshName]
  split
  · exact searchFresh_not_mem used base 2
  · rename_i unused
    simpa using unused

/-- A base name that is in use gets the least number from two on that makes it a name not
in use. -/
theorem freshName_of_used {used : List String} {base : String} (taken : base ∈ used) :
    ∃ number, 2 ≤ number ∧ freshName used base = numbered base number ∧
      numbered base number ∉ used ∧
      ∀ earlier, 2 ≤ earlier → earlier < number → numbered base earlier ∈ used := by
  obtain ⟨steps, _, found, before, _⟩ := searchFresh_spec used base used.length 2
  have free := searchFresh_not_mem used base 2
  rw [found] at free
  refine ⟨2 + steps, by omega, ?_, free, ?_⟩
  · rw [freshName, if_pos (by simpa using taken), found]
  · intro earlier low high
    obtain ⟨offset, rfl⟩ : ∃ offset, earlier = 2 + offset := ⟨earlier - 2, by omega⟩
    exact before offset (by omega)

/-- The name that a base leads to, with its place among the candidates: the base when it is
free, and otherwise the base with the least number from two on that makes it free. -/
inductive FirstFree (used : List String) (base : String) : Nat → String → Prop where
  | own (unused : base ∉ used) : FirstFree used base 1 base
  | counted {number : Nat} (taken : base ∈ used) (low : 2 ≤ number)
      (unused : numbered base number ∉ used)
      (least : ∀ earlier, 2 ≤ earlier → earlier < number → numbered base earlier ∈ used) :
      FirstFree used base number (numbered base number)

/-- A base leads to one name only. -/
theorem FirstFree.unique {used : List String} {base name other : String} {place count : Nat}
    (first : FirstFree used base place name) (second : FirstFree used base count other) :
    place = count ∧ name = other := by
  cases first with
  | own unused =>
    cases second with
    | own => exact ⟨rfl, rfl⟩
    | counted taken => exact absurd taken unused
  | counted taken low unused least =>
    cases second with
    | own free => exact absurd taken free
    | counted _ otherLow otherUnused otherLeast =>
      rcases Nat.lt_trichotomy place count with less | rfl | more
      · exact absurd (otherLeast place low less) unused
      · exact ⟨rfl, rfl⟩
      · exact absurd (least count otherLow more) otherUnused

/-- A fresh name is the one that its base leads to. -/
theorem exists_firstFree (used : List String) (base : String) :
    ∃ place, FirstFree used base place (freshName used base) := by
  by_cases taken : base ∈ used
  · obtain ⟨number, low, found, unused, least⟩ := freshName_of_used taken
    exact ⟨number, found ▸ .counted taken low unused least⟩
  · rw [freshName_of_unused (by simpa using taken)]
    exact ⟨1, .own taken⟩

/-- Only the use of its candidates matters to the name that a base leads to. -/
theorem FirstFree.congr {used other : List String} {base name : String} {place : Nat}
    (own : base ∈ used ↔ base ∈ other)
    (counted : ∀ number, numbered base number ∈ used ↔ numbered base number ∈ other)
    (first : FirstFree used base place name) : FirstFree other base place name := by
  cases first with
  | own unused => exact .own (mt own.mpr unused)
  | counted taken low unused least =>
    refine .counted (own.mp taken) low (mt (counted place).mpr unused) ?_
    intro earlier earlierLow less
    exact (counted earlier).mp (least earlier earlierLow less)

/-- Only the use of its candidates matters to a fresh name. -/
theorem freshName_congr {used other : List String} {base : String}
    (own : base ∈ used ↔ base ∈ other)
    (counted : ∀ number, numbered base number ∈ used ↔ numbered base number ∈ other) :
    freshName used base = freshName other base := by
  obtain ⟨_, first⟩ := exists_firstFree used base
  obtain ⟨_, second⟩ := exists_firstFree other base
  exact ((first.congr own counted).unique second).2

/-- A fresh name starts with its base. -/
theorem exists_toList_freshName (used : List String) (base : String) :
    ∃ more, (freshName used base).toList = base.toList ++ more := by
  by_cases taken : base ∈ used
  · obtain ⟨number, _, found, _⟩ := freshName_of_used taken
    exact ⟨_, by rw [found, toList_numbered]⟩
  · refine ⟨[], ?_⟩
    rw [freshName_of_unused (by simpa using taken), List.append_nil]

/-- Whether characters can be read as the name of a parameter: an ASCII letter or
an underscore, and then ASCII letters, digits and underscores. -/
def IsParameterName : List Char → Prop
  | [] => False
  | first :: rest => (first.isAlpha = true ∨ first = '_') ∧ ∀ character ∈ rest, isNameChar character

/-- The name of a parameter is not empty. -/
theorem IsParameterName.ne_nil {name : List Char} (readable : IsParameterName name) : name ≠ [] := by
  rintro rfl
  exact readable

/-- The name of a parameter has name characters only. -/
theorem IsParameterName.all {name : List Char} (readable : IsParameterName name) :
    ∀ character ∈ name, isNameChar character := by
  cases name with
  | nil => exact readable.elim
  | cons first rest =>
    intro character member
    rcases List.mem_cons.mp member with rfl | later
    · rcases readable.1 with letter | rfl
      · simp [isNameChar, Char.isAlphanum, letter]
      · decide
    · exact readable.2 character later

/-- Name characters behind the name of a parameter go on with it. -/
theorem IsParameterName.append {name more : List Char} (readable : IsParameterName name)
    (all : ∀ character ∈ more, isNameChar character) : IsParameterName (name ++ more) := by
  cases name with
  | nil => exact readable.elim
  | cons first rest =>
    refine ⟨readable.1, ?_⟩
    intro character member
    exact (List.mem_append.mp member).elim (readable.2 character) (all character)

/-- The stem made from a column can be read as the name of a parameter. Characters that may
not stand in a name are replaced, so only the first character can still be wrong; a digit
there gets a mark in front of it, and so does an empty name. -/
theorem isParameterName_parameterStem (column : String) :
    IsParameterName (parameterStem column).toList := by
  have all : ∀ character ∈ column.toList.map (fun character =>
      if isNameChar character then character else '_'), isNameChar character = true := by
    intro character member
    obtain ⟨original, _, rfl⟩ := List.mem_map.mp member
    split
    · assumption
    · decide
  simp only [parameterStem]
  generalize column.toList.map (fun character => if isNameChar character then character else '_') =
    body at all
  cases body with
  | nil => exact ⟨Or.inl (by decide), by simp; decide⟩
  | cons first rest =>
    by_cases digit : first.isDigit = true
    · simp only [digit, if_true, String.toList_ofList]
      refine ⟨Or.inl (by decide), ?_⟩
      intro character member
      rcases List.mem_cons.mp member with rfl | later
      · decide
      · exact all character later
    · simp only [digit, Bool.false_eq_true, if_false, String.toList_ofList]
      constructor
      · have inside : isNameChar first = true := all first List.mem_cons_self
        simpa [isNameChar, Char.isAlphanum, digit] using inside
      · intro character member
        exact all character (List.mem_cons_of_mem first member)

/-- A fresh name can be read as the name of a parameter when its base can. -/
theorem isParameterName_freshName (used : List String) {base : String}
    (readable : IsParameterName base.toList) : IsParameterName (freshName used base).toList := by
  have counted (number : Nat) : IsParameterName (numbered base number).toList := by
    rw [toList_numbered]
    apply readable.append
    intro character member
    rcases List.mem_cons.mp member with rfl | digit
    · decide
    · exact isNameChar_of_isDigit (Nat.isDigit_of_mem_toDigits (by decide) (by decide) digit)
  rw [freshName]
  split
  · obtain ⟨steps, _, found, _⟩ := searchFresh_spec used base used.length 2
    rw [found]
    exact counted (2 + steps)
  · exact readable

end EventSieve.Clause
