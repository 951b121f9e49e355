import EventSieve.Proofs.Record.Composition
import EventSieve.Proofs.Record.Resolution

/-!
# The object of a dictionary

The cells of a dictionary go into an object one after the other. A cell that is an object
brings all of its members, and any other cell one member under its own key. Where several
cells bring a key, the last of them decides about its value and the first about its place.

One more cell keeps what is known of the object: its keys are those that were brought, in
the order in which they came first, and every value is that of the last cell which brought
its key. So this is known of the object of a dictionary of any length. When a cell does not
convert there is no object, and the first such cell decides about the error.
-/

namespace EventSieve

namespace Json

/-- A key that has a place keeps it, and any other gets the last one. -/
theorem map_fst_put (key : String) (value : Json) (members : Members) :
    (put key value members).map (·.1) =
      if key ∈ members.map (·.1) then members.map (·.1) else members.map (·.1) ++ [key] := by
  split
  · rename_i present
    induction members with
    | nil => cases present
    | cons member rest inductionHypothesis =>
      by_cases same : member.1 = key
      · simp [put, same]
      · have later : key ∈ rest.map (·.1) := by simpa [Ne.symm same] using present
        simp [put, same, inductionHypothesis later]
  · rename_i absent
    rw [put_of_not_mem absent, List.map_append]
    rfl

/-- Distinct keys stay distinct. -/
theorem nodup_putAll {members : Members} (distinct : (members.map (·.1)).Nodup)
    (additions : Members) : ((putAll members additions).map (·.1)).Nodup := by
  induction additions generalizing members with
  | nil => exact distinct
  | cons addition rest inductionHypothesis =>
    apply inductionHypothesis
    rw [map_fst_put]
    split
    · exact distinct
    · rename_i absent
      exact distinct.append (List.nodup_singleton _) (List.disjoint_singleton.mpr absent)

/-- A key that is put behind others takes part in their order. -/
theorem map_fst_put_eraseDups {members : Members} {keys : List String}
    (known : members.map (·.1) = keys.eraseDups) (key : String) (value : Json) :
    (put key value members).map (·.1) = (keys ++ [key]).eraseDups := by
  rw [map_fst_put, known, List.eraseDups_append]
  by_cases brought : key ∈ keys
  · simp [List.removeAll, brought]
  · simp [List.removeAll, brought, List.eraseDups_cons]

/-- So do the keys of members that are put behind others. -/
theorem map_fst_putAll {members : Members} {keys : List String}
    (known : members.map (·.1) = keys.eraseDups) (additions : Members) :
    (putAll members additions).map (·.1) = (keys ++ additions.map (·.1)).eraseDups := by
  induction additions generalizing members keys with
  | nil => simpa [putAll] using known
  | cons addition rest inductionHypothesis =>
    have later := inductionHypothesis (map_fst_put_eraseDups known addition.1 addition.2)
    rw [List.append_assoc] at later
    exact later

/-- Members that are put behind others bring the last values of their keys. -/
theorem lookup_putAll (key : String) (members additions : Members) :
    lookup key (putAll members additions) = (lastValue? key additions).or (lookup key members) := by
  induction additions generalizing members with
  | nil => rfl
  | cons addition rest inductionHypothesis =>
    have step : putAll members (addition :: rest) =
        putAll (put addition.1 addition.2 members) rest := rfl
    rw [step, inductionHypothesis, lastValue?, Option.or_assoc]
    by_cases same : addition.1 = key
    · rw [if_pos same, same, lookup_put_same]
      rfl
    · rw [if_neg same, lookup_put_other same]
      rfl

/-- The last value of a key is one of its values. -/
theorem mem_of_lastValue? {key : String} {value : Json} {members : Members}
    (last : lastValue? key members = some value) : (key, value) ∈ members := by
  induction members with
  | nil => cases last
  | cons member rest inductionHypothesis =>
    rw [lastValue?, Option.or_eq_some_iff] at last
    rcases last with later | ⟨_, own⟩
    · exact List.mem_cons_of_mem _ (inductionHypothesis later)
    · split at own
      · rename_i same
        cases own
        exact same ▸ List.mem_cons_self
      · cases own

/-- A key that no member has, has no last value, and no other. -/
theorem lastValue?_eq_none_iff {key : String} {members : Members} :
    lastValue? key members = none ↔ key ∉ members.map (·.1) := by
  induction members with
  | nil => simp [lastValue?]
  | cons member rest inductionHypothesis =>
    rw [lastValue?, Option.or_eq_none_iff, inductionHypothesis]
    simp [and_comm, eq_comm]

/-- What is found under a key is a member with it, and every member is found when the keys are
distinct. -/
theorem lookup_eq_some_iff {members : Members} (distinct : (members.map (·.1)).Nodup)
    {key : String} {value : Json} : lookup key members = some value ↔ (key, value) ∈ members := by
  induction members with
  | nil => simp [lookup]
  | cons member rest inductionHypothesis =>
    obtain ⟨apart, later⟩ := List.nodup_cons.mp distinct
    obtain ⟨name, own⟩ := member
    rw [lookup, List.mem_cons, Prod.mk.injEq]
    by_cases same : name = key
    · have once : (key, value) ∉ rest := by
        intro again
        exact apart (List.mem_map.mpr ⟨_, again, same.symm⟩)
      simp [same, once, eq_comm]
    · simp [same, Ne.symm same, inductionHypothesis later]

end Json

namespace Locator

/-- A converted cell with the key that a dictionary gives it brings a value for a key: every
member of it when it is an object, and itself under its own key otherwise. -/
inductive Brings : String × Cell → String → Json → Prop where
  | member {key name : String} {inner : Json.Members} {value : Json}
      (inside : (name, value) ∈ inner) : Brings (key, .json (.object inner)) name value
  | own {key : String} {cell : Cell} (plain : ∀ inner, cell ≠ .json (.object inner)) :
      Brings (key, cell) key cell.toJson

/-- The keys that a converted cell brings, in their order. -/
def keysOf : String × Cell → List String
  | (_, .json (.object inner)) => inner.map (·.1)
  | (key, _) => [key]

/-- Whether members are those of the object of some cells: their keys are distinct, they are
the keys that the cells bring, in the order in which they come first, and each value is that
of the last cell which brings its key. -/
structure Composes (cells : List (String × Cell)) (members : Json.Members) : Prop where
  distinct : (members.map (·.1)).Nodup
  brought : ∀ name, name ∈ members.map (·.1) ↔ ∃ cell ∈ cells, ∃ value, Brings cell name value
  order : members.map (·.1) = (cells.flatMap keysOf).eraseDups
  latest : ∀ name value, (name, value) ∈ members → ∃ front cell back,
    cells = front ++ cell :: back ∧ Brings cell name value ∧
      ∀ later ∈ back, ∀ other, ¬ Brings later name other

section

variable {key name : String} {cell : Cell} {value : Json} {cells : List (String × Cell)}
  {members : Json.Members}

/-- A cell is an object, or is none. -/
theorem object_or_plain (cell : Cell) :
    (∃ inner, cell = .json (.object inner)) ∨ ∀ inner, cell ≠ .json (.object inner) := by
  by_cases object : ∃ inner, cell = .json (.object inner)
  · exact .inl object
  · exact .inr fun inner same => object ⟨inner, same⟩

/-- A cell that is no object contributes itself. -/
theorem contribution_of_plain (plain : ∀ inner, cell ≠ .json (.object inner)) :
    contribution key cell = [(key, cell.toJson)] := by
  cases cell with
  | json document =>
    cases document with
    | object inner => exact absurd rfl (plain inner)
    | null | boolean | number | text | list => rfl
  | null | boolean | integer | float | text | instant | span | zone => rfl

/-- What a cell contributes is what it brings. -/
theorem mem_contribution_iff :
    (name, value) ∈ contribution key cell ↔ Brings (key, cell) name value := by
  rcases object_or_plain cell with ⟨inner, rfl⟩ | plain
  · constructor
    · exact .member
    · intro brings
      cases brings with
      | member inside => exact inside
      | own plain => exact absurd rfl (plain inner)
  · rw [contribution_of_plain plain, List.mem_singleton]
    constructor
    · rintro ⟨⟩
      exact .own plain
    · intro brings
      cases brings with
      | member inside => exact absurd rfl (plain _)
      | own => rfl

/-- The keys of its contribution are those that it brings. -/
theorem map_fst_contribution (key : String) (cell : Cell) :
    (contribution key cell).map (·.1) = keysOf (key, cell) := by
  cases cell with
  | json document =>
    cases document with
    | object | null | boolean | number | text | list => rfl
  | null | boolean | integer | float | text | instant | span | zone => rfl

/-- A cell brings a value for each of these keys, and for no other. -/
theorem mem_keysOf_iff : name ∈ keysOf (key, cell) ↔ ∃ value, Brings (key, cell) name value := by
  rw [← map_fst_contribution, List.mem_map]
  constructor
  · rintro ⟨⟨_, value⟩, inside, rfl⟩
    exact ⟨value, mem_contribution_iff.mp inside⟩
  · rintro ⟨value, brings⟩
    exact ⟨_, mem_contribution_iff.mpr brings, rfl⟩

/-- Keys in the order in which cells bring them are those that cells bring. -/
theorem mem_eraseDups_keysOf_iff : name ∈ (cells.flatMap keysOf).eraseDups ↔
    ∃ cell ∈ cells, ∃ value, Brings cell name value := by
  rw [List.mem_eraseDups, List.mem_flatMap]
  constructor
  · rintro ⟨cell, member, inside⟩
    exact ⟨cell, member, mem_keysOf_iff.mp inside⟩
  · rintro ⟨cell, member, brings⟩
    exact ⟨cell, member, mem_keysOf_iff.mpr brings⟩

/-- Without cells there are no members. -/
theorem composes_nil : Composes [] [] where
  distinct := List.nodup_nil
  brought name := by simp
  order := rfl
  latest name value member := by cases member

/-- One more cell brings its values behind the others: it decides about the values of its
keys, and the other values stay those of the cells that brought them last. Putting values
into an object keeps the order of its keys and appends the new ones. Which cell comes last
for a key is decided by whether the new one brings it. -/
theorem Composes.concat (composed : Composes cells members) (key : String) (cell : Cell) :
    Composes (cells ++ [(key, cell)]) (Json.putAll members (contribution key cell)) := by
  have order : (Json.putAll members (contribution key cell)).map (·.1) =
      ((cells ++ [(key, cell)]).flatMap keysOf).eraseDups := by
    rw [Json.map_fst_putAll composed.order, map_fst_contribution, List.flatMap_append,
      List.flatMap_singleton]
  have distinct := Json.nodup_putAll composed.distinct (contribution key cell)
  refine ⟨distinct, ?_, order, ?_⟩
  · intro name
    rw [order, mem_eraseDups_keysOf_iff]
  · intro name value member
    have found := (Json.lookup_eq_some_iff distinct).mpr member
    rw [Json.lookup_putAll, Option.or_eq_some_iff] at found
    rcases found with last | ⟨none, earlier⟩
    · -- The new cell brings the key, and no cell stands behind it.
      exact ⟨cells, (key, cell), [], rfl, mem_contribution_iff.mp (Json.mem_of_lastValue? last),
        fun _ later => absurd later List.not_mem_nil⟩
    · -- The value was there before, and the new cell is one more that does not bring its key.
      have silent : ∀ other, ¬ Brings (key, cell) name other := by
        intro other brings
        apply Json.lastValue?_eq_none_iff.mp none
        rw [map_fst_contribution]
        exact mem_keysOf_iff.mpr ⟨other, brings⟩
      obtain ⟨front, own, back, split, brings, last⟩ :=
        composed.latest name value ((Json.lookup_eq_some_iff composed.distinct).mp earlier)
      refine ⟨front, own, back ++ [(key, cell)], by rw [split]; simp, brings, ?_⟩
      exact List.forall_mem_append.mpr ⟨last, List.forall_mem_singleton.mpr silent⟩

/-- The object of cells is composed of them. -/
theorem composes_compose (cells : List (String × Cell)) : Composes cells (compose cells) := by
  induction cells using List.reverseRecOn with
  | nil => exact composes_nil
  | append_singleton earlier cell inductionHypothesis =>
    rw [compose_concat]
    exact inductionHypothesis.concat cell.1 cell.2

end

end Locator

namespace Row

/-- A dictionary whose cells convert gives the object of the converted cells. If a cell does
not convert the result is the error of the first one.

Proof: converting the cells of the pairs in order either gives all of them or ends at the
first failure. Composing the object from cells is putting in their contributions, and one
more cell at the end keeps what is said about the object so far. -/
theorem resolve_dict (row : Row) (types : List ColumnType) (concatenator : String)
    (fallback : Cell) (pairs : List (String × Nat)) :
    ((∀ pair ∈ pairs, row.ConvertsAt types pair.2) → ∃ members,
      row.resolve types concatenator fallback (.dict pairs) = .ok (.json (.object members)) ∧
        Locator.Composes (pairs.map fun pair => (pair.1, row.normalAt types pair.2)) members) ∧
    ∀ front pair back error, pairs = front ++ pair :: back →
      (∀ earlier ∈ front, row.ConvertsAt types earlier.2) →
      row.convertAt types pair.2 = .error error →
        row.resolve types concatenator fallback (.dict pairs) = .error error := by
  constructor
  · intro converts
    refine ⟨_, ?_, Locator.composes_compose _⟩
    have cells : (pairs.mapM fun pair => do
        let cell ← convertAt row types pair.2
        pure (pair.1, cell)) = Except.ok (pairs.map fun pair =>
          (pair.1, row.normalAt types pair.2)) := by
      apply mapM_eq_ok_iff.mpr
      rw [List.forall₂_map_right_iff, List.forall₂_same]
      intro pair member
      rw [(converts pair member).eq]
      rfl
    rw [resolve, Locator.gather, cells]
    rfl
  · rintro front pair back error rfl converts failed
    have ends : ((front ++ pair :: back).mapM fun pair => do
        let cell ← convertAt row types pair.2
        pure (pair.1, cell)) = Except.error error := by
      apply mapM_eq_error
      · intro earlier member
        rw [(converts earlier member).eq]
        exact ⟨_, rfl⟩
      · rw [failed]
        rfl
    rw [resolve, Locator.gather, ends]
    rfl

/-- A score, a document with a name and a score of its own, and a name. -/
def scoreRow : Row :=
  [.integer 1, .json (.object [("name", .text "none"), ("score", .ofInt 3)]), .text "Ada"]

/-- The document brings another score and the first name. Where the name should be an integer,
it is the first cell that does not convert. -/
theorem resolve_dict_score :
    (∃ members, scoreRow.resolve [.int, .json, .str] "." .null
        (.dict [("score", 0), ("document", 1), ("name", 2)]) = .ok (.json (.object members)) ∧
      Locator.Composes [("score", .integer 1), ("document", .json (.object
        [("name", .text "none"), ("score", .ofInt 3)])), ("name", .text "Ada")] members) ∧
    scoreRow.resolve [.int, .json, .int] "." .null
      (.dict [("score", 0), ("name", 2), ("document", 1)]) =
        .error (.incompatible "str" "Ada" .int) := by
  constructor
  · apply (resolve_dict scoreRow [.int, .json, .str] "." .null
      [("score", 0), ("document", 1), ("name", 2)]).1
    intro pair member
    simp only [List.mem_cons, List.not_mem_nil, or_false] at member
    rcases member with rfl | rfl | rfl
    · exact ⟨_, rfl⟩
    · exact ⟨_, rfl⟩
    · exact ⟨_, rfl⟩
  · refine (resolve_dict scoreRow [.int, .json, .int] "." .null _).2 [("score", 0)] ("name", 2)
      [("document", 1)] _ rfl ?_ rfl
    intro earlier member
    cases List.mem_singleton.mp member
    exact ⟨_, rfl⟩

end Row

end EventSieve
