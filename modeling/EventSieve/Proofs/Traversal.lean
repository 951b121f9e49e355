import Mathlib

/-!
# Traversals that can fail

A traversal of a list succeeds when every step does, and its values are those of
the steps, one for one. Steps that are known to succeed make the traversal a map.
A computation in parts succeeds when its first part does and the rest does with
what the first part gives.
-/

namespace EventSieve

variable {Source Value Error : Type}

/-- A computation in two parts succeeds exactly when both parts do. -/
theorem bind_eq_ok_iff {first : Except Error Source} {rest : Source → Except Error Value}
    {value : Value} :
    (first >>= rest) = .ok value ↔ ∃ middle, first = .ok middle ∧ rest middle = .ok value := by
  cases first with
  | error error => simp [bind, Except.bind]
  | ok middle => simp [bind, Except.bind]

/-- A traversal succeeds exactly when its steps do, one for one. -/
theorem mapM_eq_ok_iff {step : Source → Except Error Value} {sources : List Source}
    {values : List Value} :
    sources.mapM step = .ok values ↔
      List.Forall₂ (fun source value => step source = .ok value) sources values := by
  induction sources generalizing values with
  | nil => cases values <;> simp [pure, Except.pure]
  | cons source rest inductionHypothesis =>
    rw [List.mapM_cons, bind_eq_ok_iff]
    constructor
    · rintro ⟨value, first, later⟩
      obtain ⟨more, others, same⟩ := bind_eq_ok_iff.mp later
      cases same
      exact .cons first (inductionHypothesis.mp others)
    · rintro (_ | ⟨first, others⟩)
      exact ⟨_, first, bind_eq_ok_iff.mpr ⟨_, inductionHypothesis.mpr others, rfl⟩⟩

/-- Options that stand for the sources that pass a test are the values of these sources, one
for one. The induction goes along both lists. -/
theorem forall₂_filter_filterMap {related : Source → Option Value → Prop} {test : Source → Bool}
    {sources : List Source} {options : List (Option Value)}
    (all : List.Forall₂ related sources options)
    (stands : ∀ source ∈ sources, ∀ option, related source option →
      option.isSome = test source) :
    List.Forall₂ (fun source value => related source (some value)) (sources.filter test)
      (options.filterMap id) := by
  induction all with
  | nil => exact .nil
  | @cons source option rest _ first _ inductionHypothesis =>
    obtain ⟨own, later⟩ := List.forall_mem_cons.mp stands
    have others := inductionHypothesis later
    have verdict := own option first
    cases option with
    | none =>
      have fails : ¬ test source = true := by simp [← verdict]
      rw [List.filter_cons_of_neg fails]
      exact others
    | some value =>
      rw [List.filter_cons_of_pos verdict.symm]
      exact .cons first others

/-- A partial traversal has values exactly when its steps do, one for one. -/
theorem mapM_eq_some_iff {step : Source → Option Value} {sources : List Source}
    {values : List Value} :
    sources.mapM step = some values ↔
      List.Forall₂ (fun source value => step source = some value) sources values := by
  induction sources generalizing values with
  | nil => cases values <;> simp
  | cons source rest inductionHypothesis =>
    rw [List.mapM_cons]
    constructor
    · intro all
      obtain ⟨value, first, later⟩ := Option.bind_eq_some_iff.mp all
      obtain ⟨more, others, same⟩ := Option.bind_eq_some_iff.mp later
      cases same
      exact .cons first (inductionHypothesis.mp others)
    · rintro (_ | ⟨first, others⟩)
      simp [first, inductionHypothesis.mpr others]

/-- Steps that have values make a partial traversal a map. -/
theorem mapM_eq_some_map {step : Source → Option Value} {total : Source → Value}
    {sources : List Source} (succeeds : ∀ source ∈ sources, step source = some (total source)) :
    sources.mapM step = some (sources.map total) := by
  apply mapM_eq_some_iff.mpr
  rw [List.forall₂_map_right_iff]
  exact List.forall₂_same.mpr succeeds

/-- A traversal succeeds when every step does. -/
theorem exists_mapM_eq_ok {step : Source → Except Error Value} {sources : List Source}
    (succeeds : ∀ source ∈ sources, ∃ value, step source = .ok value) :
    ∃ values, sources.mapM step = .ok values := by
  induction sources with
  | nil => exact ⟨[], rfl⟩
  | cons source rest inductionHypothesis =>
    obtain ⟨own, later⟩ := List.forall_mem_cons.mp succeeds
    obtain ⟨value, first⟩ := own
    obtain ⟨values, others⟩ := inductionHypothesis later
    exact ⟨value :: values, mapM_eq_ok_iff.mpr (.cons first (mapM_eq_ok_iff.mp others))⟩

/-- A traversal ends with the error of the first step that fails. -/
theorem mapM_eq_error {step : Source → Except Error Value} {front back : List Source}
    {source : Source} {error : Error} (succeed : ∀ earlier ∈ front, ∃ value, step earlier = .ok value)
    (failed : step source = .error error) :
    (front ++ source :: back).mapM step = .error error := by
  obtain ⟨values, made⟩ := exists_mapM_eq_ok succeed
  rw [List.mapM_append, made, List.mapM_cons, failed]
  rfl

/-- A partial traversal has values when every step does. -/
theorem exists_mapM_eq_some {step : Source → Option Value} {sources : List Source}
    (succeeds : ∀ source ∈ sources, ∃ value, step source = some value) :
    ∃ values, sources.mapM step = some values := by
  induction sources with
  | nil => exact ⟨[], rfl⟩
  | cons source rest inductionHypothesis =>
    obtain ⟨own, later⟩ := List.forall_mem_cons.mp succeeds
    obtain ⟨value, first⟩ := own
    obtain ⟨values, others⟩ := inductionHypothesis later
    exact ⟨value :: values, mapM_eq_some_iff.mpr (.cons first (mapM_eq_some_iff.mp others))⟩

/-- A traversal whose steps can only give known values is a map. -/
theorem eq_map_of_mapM_eq_ok {step : Source → Except Error Value} {total : Source → Value}
    {sources : List Source} {values : List Value} (made : sources.mapM step = .ok values)
    (known : ∀ source ∈ sources, ∀ value, step source = .ok value → value = total source) :
    values = sources.map total := by
  have steps := mapM_eq_ok_iff.mp made
  clear made
  induction steps with
  | nil => rfl
  | cons first _ inductionHypothesis =>
    obtain ⟨own, later⟩ := List.forall_mem_cons.mp known
    rw [List.map_cons, own _ first, inductionHypothesis later]

/-- A value of one list comes from a source to which it is related. -/
theorem exists_source_of_mem {related : Source → Value → Prop} {sources : List Source}
    {values : List Value} (all : List.Forall₂ related sources values) {value : Value}
    (member : value ∈ values) : ∃ source ∈ sources, related source value := by
  induction all with
  | nil => cases member
  | cons first _ inductionHypothesis =>
    rcases List.mem_cons.mp member with rfl | later
    · exact ⟨_, List.mem_cons_self, first⟩
    · obtain ⟨source, inside, holds⟩ := inductionHypothesis later
      exact ⟨source, List.mem_cons_of_mem _ inside, holds⟩

/-- A source of one list has a value to which it is related. -/
theorem exists_value_of_mem {related : Source → Value → Prop} {sources : List Source}
    {values : List Value} (all : List.Forall₂ related sources values) {source : Source}
    (member : source ∈ sources) : ∃ value ∈ values, related source value :=
  exists_source_of_mem all.flip member

/-- Going from one list to another in two passes is going there in one. One direction is by
induction on the first pass, the other on the single one. -/
theorem forall₂_passes_iff {Middle : Type} {first : Source → Middle → Prop}
    {second : Middle → Value → Prop} {sources : List Source} {values : List Value} :
    (∃ middles, List.Forall₂ first sources middles ∧ List.Forall₂ second middles values) ↔
      List.Forall₂ (fun source value => ∃ middle, first source middle ∧ second middle value)
        sources values := by
  constructor
  · rintro ⟨middles, front, back⟩
    induction front generalizing values with
    | nil =>
      cases back
      exact .nil
    | cons own _ inductionHypothesis =>
      obtain ⟨value, rest, next, others, rfl⟩ := List.forall₂_cons_left_iff.mp back
      exact .cons ⟨_, own, next⟩ (inductionHypothesis others)
  · intro both
    induction both with
    | nil => exact ⟨[], .nil, .nil⟩
    | cons own _ inductionHypothesis =>
      obtain ⟨middle, front, back⟩ := own
      obtain ⟨middles, fronts, backs⟩ := inductionHypothesis
      exact ⟨middle :: middles, .cons front fronts, .cons back backs⟩

/-- A condition on the values of a relation holds of all values of the lists. -/
theorem forall₂_and_right_iff {related : Source → Value → Prop} {Holds : Value → Prop}
    {sources : List Source} {values : List Value} :
    List.Forall₂ (fun source value => related source value ∧ Holds value) sources values ↔
      List.Forall₂ related sources values ∧ ∀ value ∈ values, Holds value := by
  constructor
  · intro both
    refine ⟨both.imp fun _ _ own => own.1, ?_⟩
    intro value member
    obtain ⟨source, -, -, holds⟩ := exists_source_of_mem both member
    exact holds
  · rintro ⟨all, holds⟩
    induction all with
    | nil => exact .nil
    | cons own _ inductionHypothesis =>
      obtain ⟨first, later⟩ := List.forall_mem_cons.mp holds
      exact .cons ⟨own, first⟩ (inductionHypothesis later)

/-- Checks of a list pass together exactly when each passes. -/
theorem forM_eq_ok_iff {check : Source → Except Error Unit} {sources : List Source} :
    sources.forM check = .ok () ↔ ∀ source ∈ sources, check source = .ok () := by
  induction sources with
  | nil => simp [pure, Except.pure]
  | cons source rest inductionHypothesis =>
    rw [List.forall_mem_cons, ← inductionHypothesis]
    refine (@bind_eq_ok_iff Unit Unit Error (check source) _ ()).trans ?_
    constructor
    · rintro ⟨⟨⟩, first, later⟩
      exact ⟨first, later⟩
    · rintro ⟨first, later⟩
      exact ⟨(), first, later⟩

/-- What holds of every step of a traversal, and of computations behind one another,
holds of the traversal. -/
theorem mapM_holds {m : Type → Type} [Monad m] [LawfulMonad m] (Holds : ∀ {α : Type}, m α → Prop)
    (holdsPure : ∀ {α : Type} (value : α), Holds (pure value : m α))
    (holdsBind : ∀ {α β : Type} {first : m α} {next : α → m β},
      Holds first → (∀ value, Holds (next value)) → Holds (first >>= next))
    {Source Value : Type} {step : Source → m Value} {sources : List Source}
    (steps : ∀ source ∈ sources, Holds (step source)) : Holds (sources.mapM step) := by
  induction sources with
  | nil =>
    rw [List.mapM_nil]
    exact holdsPure []
  | cons source rest inductionHypothesis =>
    obtain ⟨own, later⟩ := List.forall_mem_cons.mp steps
    rw [List.mapM_cons]
    apply holdsBind own
    intro value
    apply holdsBind (inductionHypothesis later)
    intro values
    exact holdsPure (value :: values)

end EventSieve
