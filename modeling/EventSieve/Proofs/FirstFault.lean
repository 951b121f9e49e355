/-!
# Computations that end with the first of their faults

A computation made of checks that can each fail stops at the first one that does.
Such a computation is described by the list of everything that is wrong, in the
order in which it would be found: the computation succeeds when the list is empty,
and otherwise ends with the first entry. Computations in parts have the faults of
their parts one behind the other.
-/

namespace EventSieve

variable {Source Value Other Fault : Type}

/-- Whether a computation succeeds when there are no faults, and ends with the first
of them otherwise. -/
def Reports (result : Except Fault Value) : List Fault → Prop
  | [] => ∃ value, result = .ok value
  | fault :: _ => result = .error fault

namespace Reports

variable {result : Except Fault Value} {faults : List Fault}

/-- A computation succeeds exactly when there are no faults. -/
theorem ok_iff (reports : Reports result faults) :
    (∃ value, result = .ok value) ↔ faults = [] := by
  cases faults with
  | nil => exact iff_of_true reports rfl
  | cons fault rest =>
    have failed : result = .error fault := reports
    simp [failed]

/-- A computation ends with a fault exactly when that is the first one. -/
theorem error_iff (reports : Reports result faults) {fault : Fault} :
    result = .error fault ↔ faults.head? = some fault := by
  cases faults with
  | nil =>
    obtain ⟨value, made⟩ := reports
    simp [made]
  | cons first rest =>
    have failed : result = .error first := reports
    simp [failed]

/-- A computation in two parts has the faults of the second behind those of the
first. -/
theorem bind {rest : Value → Except Fault Other} {more : List Fault}
    (first : Reports result faults)
    (second : ∀ value, result = .ok value → Reports (rest value) more) :
    Reports (result >>= rest) (faults ++ more) := by
  cases faults with
  | nil =>
    obtain ⟨value, made⟩ := first
    have continued := second value made
    rw [made]
    exact continued
  | cons fault others =>
    have failed : result = .error fault := first
    rw [failed]
    rfl

/-- A second part that always succeeds adds no faults. -/
theorem bind_ok {rest : Value → Except Fault Other} (reports : Reports result faults)
    (succeeds : ∀ value, result = .ok value → ∃ other, rest value = .ok other) :
    Reports (result >>= rest) faults := by
  have both : Reports (result >>= rest) (faults ++ []) := reports.bind succeeds
  rwa [List.append_nil] at both

/-- What is made of the value of a computation adds no faults. -/
theorem map (reports : Reports result faults) (finish : Value → Other) :
    Reports (result >>= fun value => pure (finish value)) faults :=
  reports.bind_ok fun value _ => ⟨finish value, rfl⟩

/-- A traversal has the faults of its steps, one step after the other. -/
theorem mapM {step : Source → Except Fault Value} {faultsOf : Source → List Fault}
    {sources : List Source} (steps : ∀ source ∈ sources, Reports (step source) (faultsOf source)) :
    Reports (sources.mapM step) (sources.flatMap faultsOf) := by
  induction sources with
  | nil => exact ⟨[], rfl⟩
  | cons source rest inductionHypothesis =>
    obtain ⟨own, later⟩ := List.forall_mem_cons.mp steps
    rw [List.mapM_cons, List.flatMap_cons]
    exact own.bind fun value _ => (inductionHypothesis later).map (value :: ·)

end Reports

end EventSieve
