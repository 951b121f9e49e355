import EventSieve.Json.Shape
import EventSieve.Proofs.Traversal

/-!
# Objects read field by field

A reader with a fixed list of fields takes the members of an object in the order of
the text. For an object that gives each field at most once this order does not matter:
a field that is given ends up as its value says, and a field that is left out stays as
it was, wherever the members stand and whichever spelling their keys have.

What is known of a field is said by two predicates on what has been read so far: one
for before the field is read and one for after. Reading a field turns the first into
the second and keeps both for every other field.
-/

namespace EventSieve.Json

variable {ι σ ε : Type}

/-- The values of the members whose key is one of some spellings. -/
def valuesOf (spellings : List String) (members : List (Option String × Document)) :
    List Document :=
  (members.filter fun member => member.1.any spellings.contains).map (·.2)

/-- A key that is one of the spellings puts its value in front. -/
theorem valuesOf_cons_of_mem {spellings : List String} {key : String} (known : key ∈ spellings)
    (value : Document) (rest : List (Option String × Document)) :
    valuesOf spellings ((some key, value) :: rest) = value :: valuesOf spellings rest := by
  rw [valuesOf, List.filter_cons_of_pos (by simpa using known)]
  rfl

/-- Any other key is passed over. -/
theorem valuesOf_cons_of_not_mem {spellings : List String} {key : String}
    (other : key ∉ spellings) (value : Document) (rest : List (Option String × Document)) :
    valuesOf spellings ((some key, value) :: rest) = valuesOf spellings rest := by
  rw [valuesOf, List.filter_cons_of_neg (by simpa using other)]
  rfl

/-- Without a spelling there are no values. -/
theorem valuesOf_nil (members : List (Option String × Document)) : valuesOf [] members = [] := by
  rw [valuesOf, List.map_eq_nil_iff, List.filter_eq_nil_iff]
  intro member _
  cases member.1 <;> simp

/-- Whether values are those of one part of an object: none at all where the part may be
left out, or a single one that means it. -/
inductive Given (mayLack : Prop) (Means : Document → Prop) : List Document → Prop
  | leftOut (may : mayLack) : Given mayLack Means []
  | value {document : Document} (means : Means document) : Given mayLack Means [document]

/-- What is given stays given when it may be left out more often and means more. -/
theorem Given.imp {mayLack mayLack' : Prop} {Means Means' : Document → Prop}
    {values : List Document} (lack : mayLack → mayLack')
    (means : ∀ document, Means document → Means' document) (given : Given mayLack Means values) :
    Given mayLack' Means' values := by
  cases given with
  | leftOut may => exact .leftOut (lack may)
  | value own => exact .value (means _ own)

/-- Whether a document spells an optional value: null spells that there is none. -/
inductive SpelledOption {Value : Type} (Spelled : Value → Document → Prop) :
    Option Value → Document → Prop
  | null : SpelledOption Spelled none .null
  | value {value : Value} {document : Document} (spelled : Spelled value document) :
      SpelledOption Spelled (some value) document

namespace FieldReader

/-- Whether the keys that name a field are exactly its spellings. -/
def SpelledBy (reader : FieldReader ι σ ε) (spellings : ι → List String) : Prop :=
  ∀ key field, reader.named key = some field ↔ key ∈ spellings field

/-- Whether a value of a field is read, turns what was known of the field before into
what is known afterwards, and changes nothing for the other fields. -/
def Takes (reader : FieldReader ι σ ε) (depth : Nat) (Before After : ι → σ → Prop) (field : ι)
    (value : Document) : Prop :=
  ∀ state, Before field state → ∃ next, reader.visit depth state field value = .ok next ∧
    After field next ∧
    ∀ other, other ≠ field →
      (Before other state → Before other next) ∧ (After other state → After other next)

/-- What is left to do for an object: keys that the reader takes, no field that has been
seen, no field twice, and values that are read. What is known before holds of every
field that is still to come. -/
structure Pending (reader : FieldReader ι σ ε) (spellings : ι → List String) (depth : Nat)
    (Before After : ι → σ → Prop) (members : List (Option String × Document)) (seen : List ι)
    (state : σ) : Prop where
  keys : ∀ member ∈ members, ∃ key, member.1 = some key ∧
    (reader.skipsUnknown = true ∨ ∃ field, key ∈ spellings field)
  fresh : ∀ field ∈ seen, valuesOf (spellings field) members = []
  once : ∀ field, valuesOf (spellings field) members = [] ∨
    ∃ value, valuesOf (spellings field) members = [value] ∧
      reader.Takes depth Before After field value
  before : ∀ field, valuesOf (spellings field) members ≠ [] → Before field state

variable {reader : FieldReader ι σ ε} {spellings : ι → List String} {depth : Nat}
  {Before After : ι → σ → Prop} {key : String} {value : Document}
  {rest : List (Option String × Document)} {seen : List ι} {state : σ}

/-- A key belongs to the field that it names and to no other. -/
theorem SpelledBy.not_mem (spelled : reader.SpelledBy spellings) {field other : ι}
    (named : reader.named key = some field) (apart : other ≠ field) : key ∉ spellings other := by
  intro again
  cases named.symm.trans ((spelled key other).mpr again)
  exact apart rfl

/-- A member whose key names no field may be passed over, and nothing else changes. -/
theorem Pending.skip (spelled : reader.SpelledBy spellings) (unknown : reader.named key = none)
    (pending : reader.Pending spellings depth Before After ((some key, value) :: rest) seen state) :
    reader.skipsUnknown = true ∧
      (∀ field, valuesOf (spellings field) ((some key, value) :: rest) =
        valuesOf (spellings field) rest) ∧
      reader.Pending spellings depth Before After rest seen state := by
  obtain ⟨keys, fresh, once, before⟩ := pending
  have other (field : ι) : key ∉ spellings field := by
    intro inside
    cases unknown.symm.trans ((spelled key field).mpr inside)
  simp only [valuesOf_cons_of_not_mem (other _)] at fresh once before
  obtain ⟨⟨_, same, taken⟩, later⟩ := List.forall_mem_cons.mp keys
  cases same
  refine ⟨?_, fun field => valuesOf_cons_of_not_mem (other field) value rest,
    later, fresh, once, before⟩
  rcases taken with skips | ⟨field, inside⟩
  · exact skips
  · exact absurd inside (other field)

/-- A member whose key names a field is read, and its field is not given again. What is
known while members are read is that each field is still given once, has been read, or was
left out; taking a member moves its field from the first kind to the second and keeps what
is known of all others. -/
theorem Pending.take (spelled : reader.SpelledBy spellings) {field : ι}
    (named : reader.named key = some field)
    (pending : reader.Pending spellings depth Before After ((some key, value) :: rest) seen state) :
    field ∉ seen ∧ valuesOf (spellings field) rest = [] ∧
      ∃ next, reader.visit depth state field value = .ok next ∧ After field next ∧
        (∀ other, other ≠ field →
          (Before other state → Before other next) ∧ (After other state → After other next)) ∧
        reader.Pending spellings depth Before After rest (field :: seen) next := by
  obtain ⟨keys, fresh, once, before⟩ := pending
  have inside := (spelled key field).mp named
  have first := valuesOf_cons_of_mem inside value rest
  have passed (other : ι) (apart : other ≠ field) :=
    valuesOf_cons_of_not_mem (spelled.not_mem named apart) value rest
  have present : valuesOf (spellings field) ((some key, value) :: rest) ≠ [] := by
    rw [first]
    exact List.cons_ne_nil _ _
  have unseen : field ∉ seen := fun again => present (fresh field again)
  obtain ⟨gone, takes⟩ : valuesOf (spellings field) rest = [] ∧
      reader.Takes depth Before After field value := by
    rcases once field with none | ⟨own, same, takes⟩
    · exact absurd none present
    · obtain ⟨rfl, gone⟩ := List.cons.inj (first.symm.trans same)
      exact ⟨gone, takes⟩
  obtain ⟨next, visited, after, kept⟩ := takes state (before field present)
  refine ⟨unseen, gone, next, visited, after, kept, ?_, ?_, ?_, ?_⟩
  · exact (List.forall_mem_cons.mp keys).2
  · intro other member
    by_cases apart : other = field
    · rw [apart, gone]
    · rw [← passed other apart]
      exact fresh other ((List.mem_cons.mp member).resolve_left apart)
  · intro other
    by_cases apart : other = field
    · exact Or.inl (apart ▸ gone)
    · rw [← passed other apart]
      exact once other
  · intro other given
    have apart : other ≠ field := by
      rintro rfl
      exact given gone
    rw [← passed other apart] at given
    exact (kept other apart).1 (before other given)

/-- What every visit of a field keeps is kept by the items of a list. Items are visited in
the order of the fields, and a list that is too long or too short for them is refused, so
nothing but visits changes the state. -/
theorem keeps_items {Keeps : σ → Prop} {closed : Bool} {fields : List ι} {start last : σ}
    (visits : ∀ depth state field value next, Keeps state →
      reader.visit depth state field value = .ok next → Keeps next)
    {items : List Document} (kept : Keeps start)
    (read : reader.items depth closed fields start items = .ok last) : Keeps last := by
  induction items generalizing fields start with
  | nil =>
    cases fields with
    | nil =>
      simp only [FieldReader.items] at read
      split at read
      · cases read
        exact kept
      · cases read
    | cons field more =>
      simp only [FieldReader.items] at read
      split at read
      · cases read
        exact kept
      · cases read
  | cons value rest inductionHypothesis =>
    cases fields with
    | nil => cases read
    | cons field more =>
      simp only [FieldReader.items] at read
      split at read
      · rename_i next visited
        exact inductionHypothesis (visits _ _ _ _ _ kept visited) read
      · cases read

variable [DecidableEq ι]

/-- Members of which none gives a field again are taken one after the other. The
induction is on the members that are left: the fields that they give are read, and
what is known of all others is kept. -/
theorem Pending.exists_members (spelled : reader.SpelledBy spellings)
    {members : List (Option String × Document)}
    (pending : reader.Pending spellings depth Before After members seen state) :
    ∃ last, reader.members depth true seen state members = .ok last ∧
      ∀ field, (valuesOf (spellings field) members = [] →
          (Before field state → Before field last) ∧ (After field state → After field last)) ∧
        (valuesOf (spellings field) members ≠ [] → After field last) := by
  induction members generalizing seen state with
  | nil => exact ⟨state, rfl, fun field => ⟨fun _ => ⟨id, id⟩, fun given => absurd rfl given⟩⟩
  | cons member rest inductionHypothesis =>
    obtain ⟨_, value⟩ := member
    obtain ⟨⟨key, rfl, -⟩, -⟩ := List.forall_mem_cons.mp pending.keys
    cases named : reader.named key with
    | none =>
      obtain ⟨skips, same, later⟩ := pending.skip spelled named
      obtain ⟨last, read, known⟩ := inductionHypothesis later
      simp only [same]
      refine ⟨last, ?_, known⟩
      simp only [FieldReader.members, named, skips, if_true]
      exact read
    | some field =>
      obtain ⟨unseen, gone, next, visited, after, kept, later⟩ := pending.take spelled named
      obtain ⟨last, read, known⟩ := inductionHypothesis later
      refine ⟨last, ?_, ?_⟩
      · simp only [FieldReader.members, named, List.contains_eq_mem, decide_eq_true_eq, if_neg unseen,
          visited]
        exact read
      · intro other
        by_cases apart : other = field
        · subst apart
          rw [valuesOf_cons_of_mem ((spelled key other).mp named)]
          exact ⟨fun none => absurd none (List.cons_ne_nil _ _), fun _ => ((known other).1 gone).2 after⟩
        · rw [valuesOf_cons_of_not_mem (spelled.not_mem named apart)]
          refine ⟨fun none => ?_, (known other).2⟩
          obtain ⟨before, still⟩ := (known other).1 none
          exact ⟨fun holds => before ((kept other apart).1 holds),
            fun holds => still ((kept other apart).2 holds)⟩

/-- An object that gives every field, or leaves out what it may, is read, whatever the order
of its members is. The relation between a field and what it may be given is left open, so
the same law serves for parts of filters, for groups of filters and for whole documents. -/
theorem exists_read (Before After : ι → σ → Prop) {MayLack : ι → Prop}
    {Means : ι → Document → Prop} (spelled : reader.SpelledBy spellings) (deep : 1 < depth)
    {members : List (Option String × Document)} {start : σ}
    (keys : ∀ member ∈ members, ∃ key, member.1 = some key ∧
      (reader.skipsUnknown = true ∨ ∃ field, key ∈ spellings field))
    (given : ∀ field, Given (MayLack field) (Means field) (valuesOf (spellings field) members))
    (takes : ∀ field value, Means field value →
      reader.Takes (depth - 1) Before After field value)
    (stays : ∀ field state, MayLack field → Before field state → After field state)
    (before : ∀ field, Before field start) :
    ∃ last, reader.read depth start (.object members true) = .ok last ∧
      ∀ field, After field last := by
  have once (field : ι) : valuesOf (spellings field) members = [] ∨
      ∃ value, valuesOf (spellings field) members = [value] ∧
        reader.Takes (depth - 1) Before After field value := by
    cases values : valuesOf (spellings field) members with
    | nil => exact Or.inl rfl
    | cons value rest =>
      have own := given field
      rw [values] at own
      cases own with
      | value means => exact Or.inr ⟨value, rfl, takes field value means⟩
  have pending : reader.Pending spellings (depth - 1) Before After members [] start :=
    ⟨keys, fun field seen => absurd seen List.not_mem_nil, once, fun field _ => before field⟩
  obtain ⟨last, read, known⟩ := pending.exists_members spelled
  refine ⟨last, ?_, ?_⟩
  · rw [FieldReader.read, if_neg (Nat.not_le.mpr deep)]
    exact read
  · intro field
    by_cases absent : valuesOf (spellings field) members = []
    · have own := given field
      rw [absent] at own
      cases own with
      | leftOut may => exact stays field last may (((known field).1 absent).1 (before field))
    · exact (known field).2 absent

/-- The same is kept by the members of an object. A member that names no field is passed
over or refused, and one that names a field again is refused; a visit is all that is left. -/
theorem keeps_members {Keeps : σ → Prop} {closed : Bool} {seen : List ι} {start last : σ}
    (visits : ∀ depth state field value next, Keeps state →
      reader.visit depth state field value = .ok next → Keeps next)
    {members : List (Option String × Document)} (kept : Keeps start)
    (read : reader.members depth closed seen start members = .ok last) : Keeps last := by
  induction members generalizing seen start with
  | nil =>
    simp only [FieldReader.members] at read
    split at read
    · cases read
      exact kept
    · cases read
  | cons member rest inductionHypothesis =>
    obtain ⟨key, value⟩ := member
    simp only [FieldReader.members] at read
    split at read
    · cases read
    · split at read
      · split at read
        · exact inductionHypothesis kept read
        · cases read
      · split at read
        · cases read
        · split at read
          · rename_i next visited
            exact inductionHypothesis (visits _ _ _ _ _ kept visited) read
          · cases read

/-- What every visit of a field keeps is kept by a whole document. -/
theorem keeps_read {Keeps : σ → Prop} {start last : σ} {document : Document}
    (visits : ∀ depth state field value next, Keeps state →
      reader.visit depth state field value = .ok next → Keeps next)
    (kept : Keeps start) (read : reader.read depth start document = .ok last) : Keeps last := by
  cases document with
  | object members closed =>
    simp only [FieldReader.read] at read
    split at read
    · cases read
    · exact keeps_members visits kept read
  | list items closed =>
    simp only [FieldReader.read] at read
    split at read
    · cases read
    · exact keeps_items visits kept read
  | null => cases read
  | boolean => cases read
  | number => cases read
  | text => cases read

end FieldReader

end EventSieve.Json
