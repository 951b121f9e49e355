import EventSieve.Proofs.Clause.Token

/-!
# The predicates of a clause

The tokens of a clause are the word WHERE and predicates with the word AND
between them. A predicate compares two numbers, or the cells of one column: with
the values of one array, with the values of a row of parameters, with two bounds,
or with one. Between the bounds of a range there is an AND as well, so the
predicates are taken off the front one after the other; the text is not cut at
its words.

Predicates are read back from their tokens, whatever stands behind them.
-/

namespace EventSieve.Clause

/-- What stands behind the word IN. -/
inductive Operand where
  /-- The values of one array. -/
  | array (reference : Reference)
  /-- A row of parameters in parentheses. -/
  | row (references : List Reference)
deriving DecidableEq, Repr

/-- A part of a conjunction. -/
inductive Predicate where
  | equal (left right : Nat)
  | among (column : String) (negated : Bool) (operand : Operand)
  | between (column : String) (negated : Bool) (lower upper : Reference)
  | less (column : String) (bound : Reference)
  | greater (column : String) (bound : Reference)
deriving DecidableEq, Repr

/-- The tokens of a row of parameters behind its first one, up to its end. -/
def rowTokens : List Reference → List Token
  | [] => [.sign ')']
  | reference :: rest => .sign ',' :: .reference reference :: rowTokens rest

/-- The tokens of what stands behind the word IN. -/
def Operand.tokens : Operand → List Token
  | .array reference => [.word .unnestWord, .sign '(', .reference reference, .sign ')']
  | .row [] => [.sign '(', .sign ')']
  | .row (first :: rest) => .sign '(' :: .reference first :: rowTokens rest

/-- The word that turns a comparison around. -/
def negationTokens (negated : Bool) : List Token :=
  if negated then [.word .notWord] else []

/-- The tokens of a predicate. -/
def Predicate.tokens : Predicate → List Token
  | .equal left right => [.number left, .sign '=', .number right]
  | .among column negated operand =>
    .name column :: (negationTokens negated ++ .word .inWord :: operand.tokens)
  | .between column negated lower upper =>
    .name column :: (negationTokens negated ++
      [.word .betweenWord, .reference lower, .word .andWord, .reference upper])
  | .less column bound => [.name column, .sign '<', .reference bound]
  | .greater column bound => [.name column, .sign '>', .reference bound]

/-- A predicate has tokens. -/
theorem Predicate.tokens_ne_nil (predicate : Predicate) : predicate.tokens ≠ [] := by
  cases predicate <;> exact List.cons_ne_nil _ _

/-- The tokens of predicates behind a first one. -/
def furtherTokens (predicates : List Predicate) : List Token :=
  predicates.flatMap fun predicate => .word .andWord :: predicate.tokens

/-- The tokens of a clause: nothing without predicates. -/
def statementTokens : List Predicate → List Token
  | [] => []
  | first :: rest => .word .whereWord :: (first.tokens ++ furtherTokens rest)

/-- Reads a row of parameters behind its first one. -/
def row? : List Token → Option (List Reference × List Token)
  | .sign ')' :: rest => some ([], rest)
  | .sign ',' :: .reference reference :: rest =>
    (row? rest).map fun parts => (reference :: parts.1, parts.2)
  | _ => none

/-- Reads what stands behind the word IN. A row has at least one parameter. -/
def operand? : List Token → Option (Operand × List Token)
  | .word .unnestWord :: .sign '(' :: .reference reference :: .sign ')' :: rest =>
    some (.array reference, rest)
  | .sign '(' :: .reference first :: rest =>
    (row? rest).map fun parts => (.row (first :: parts.1), parts.2)
  | _ => none

/-- Reads a comparison with a column behind its name. -/
def comparison? (column : String) (negated : Bool) : List Token → Option (Predicate × List Token)
  | .word .inWord :: rest =>
    (operand? rest).map fun parts => (.among column negated parts.1, parts.2)
  | .word .betweenWord :: .reference lower :: .word .andWord :: .reference upper :: rest =>
    some (.between column negated lower upper, rest)
  | _ => none

/-- Reads the predicate in front of tokens. -/
def predicate? : List Token → Option (Predicate × List Token)
  | .number left :: .sign '=' :: .number right :: rest => some (.equal left right, rest)
  | .name column :: .sign '<' :: .reference bound :: rest => some (.less column bound, rest)
  | .name column :: .sign '>' :: .reference bound :: rest => some (.greater column bound, rest)
  | .name column :: .word .notWord :: rest => comparison? column true rest
  | .name column :: rest => comparison? column false rest
  | _ => none

/-- What follows a row is no longer than what it was read from. -/
theorem length_row?_le {tokens : List Token} {parts : List Reference × List Token}
    (read : row? tokens = some parts) : parts.2.length ≤ tokens.length := by
  fun_induction row? tokens generalizing parts with
  | case1 rest => cases read; simp
  | case2 reference rest inductionHypothesis =>
    obtain ⟨inner, found, rfl⟩ := Option.map_eq_some_iff.mp read
    have bound := inductionHypothesis found
    simp only [List.length_cons]
    omega
  | case3 => cases read

/-- What follows an operand is no longer than what it was read from. -/
theorem length_operand?_le {tokens : List Token} {parts : Operand × List Token}
    (read : operand? tokens = some parts) : parts.2.length ≤ tokens.length := by
  simp only [operand?] at read
  split at read
  · cases read
    simp only [List.length_cons]
    omega
  · obtain ⟨inner, found, rfl⟩ := Option.map_eq_some_iff.mp read
    have bound := length_row?_le found
    simp only [List.length_cons]
    omega
  · cases read

/-- What follows a comparison is no longer than what it was read from. -/
theorem length_comparison?_le {column : String} {negated : Bool} {tokens : List Token}
    {parts : Predicate × List Token} (read : comparison? column negated tokens = some parts) :
    parts.2.length ≤ tokens.length := by
  simp only [comparison?] at read
  split at read
  · obtain ⟨inner, found, rfl⟩ := Option.map_eq_some_iff.mp read
    have bound := length_operand?_le found
    simp only [List.length_cons]
    omega
  · cases read
    simp only [List.length_cons]
    omega
  · cases read

/-- A predicate takes at least one token. This is what makes reading a conjunction end: each
predicate leaves less to read. The tokens in front of an operand are taken by the predicate
itself. -/
theorem length_predicate?_lt {tokens : List Token} {parts : Predicate × List Token}
    (read : predicate? tokens = some parts) : parts.2.length < tokens.length := by
  simp only [predicate?] at read
  split at read
  · cases read
    simp only [List.length_cons]
    omega
  · cases read
    simp only [List.length_cons]
    omega
  · cases read
    simp only [List.length_cons]
    omega
  · have bound := length_comparison?_le read
    simp only [List.length_cons]
    omega
  · have bound := length_comparison?_le read
    simp only [List.length_cons]
    omega
  · cases read

/-- Reads predicates with the word AND between them, up to the end of the tokens. -/
def conjunction? (tokens : List Token) : Option (List Predicate) :=
  match _read : predicate? tokens with
  | none => none
  | some (predicate, []) => some [predicate]
  | some (predicate, .word .andWord :: rest) => (conjunction? rest).map (predicate :: ·)
  | some (_, _ :: _) => none
termination_by tokens.length
decreasing_by
  have bound := length_predicate?_lt _read
  simp only [List.length_cons] at bound
  omega

/-- Reads the predicates of a clause. -/
def statement? : List Token → Option (List Predicate)
  | [] => some []
  | .word .whereWord :: rest => conjunction? rest
  | _ => none

/-- Whether a row of parameters has at least one. -/
def Operand.IsFilled : Operand → Prop
  | .array _ => True
  | .row references => references ≠ []

/-- Whether a predicate has no empty row. -/
def Predicate.IsFilled : Predicate → Prop
  | .among _ _ operand => operand.IsFilled
  | _ => True

/-- A row is read back. -/
theorem row?_rowTokens (references : List Reference) (rest : List Token) :
    row? (rowTokens references ++ rest) = some (references, rest) := by
  induction references with
  | nil => rfl
  | cons first more inductionHypothesis =>
    simp only [rowTokens, List.cons_append, row?, inductionHypothesis, Option.map_some]

/-- An operand is read back. -/
theorem operand?_tokens {operand : Operand} (filled : operand.IsFilled) (rest : List Token) :
    operand? (operand.tokens ++ rest) = some (operand, rest) := by
  cases operand with
  | array reference => rfl
  | row references =>
    obtain ⟨first, more, rfl⟩ := List.exists_cons_of_ne_nil filled
    simp only [Operand.tokens, List.cons_append, operand?, row?_rowTokens, Option.map_some]

/-- A predicate is read back. -/
theorem predicate?_tokens {predicate : Predicate} (filled : predicate.IsFilled)
    (rest : List Token) : predicate? (predicate.tokens ++ rest) = some (predicate, rest) := by
  cases predicate with
  | equal left right => rfl
  | among column negated operand =>
    cases negated <;>
      simp [Predicate.tokens, negationTokens, predicate?, comparison?, operand?_tokens filled]
  | between column negated lower upper => cases negated <;> rfl
  | less column bound => rfl
  | greater column bound => rfl

/-- A predicate at the end of the tokens is the last one. -/
theorem conjunction?_last {tokens : List Token} {predicate : Predicate}
    (read : predicate? tokens = some (predicate, [])) : conjunction? tokens = some [predicate] := by
  rw [conjunction?]
  split
  all_goals simp_all

/-- A predicate with AND behind it stands in front of the ones that follow. -/
theorem conjunction?_and {tokens rest : List Token} {predicate : Predicate}
    (read : predicate? tokens = some (predicate, .word .andWord :: rest)) :
    conjunction? tokens = (conjunction? rest).map (predicate :: ·) := by
  rw [conjunction?]
  split
  all_goals simp_all

/-- Predicates with AND between them are read back. -/
theorem conjunction?_tokens {first : Predicate} {rest : List Predicate}
    (filled : ∀ predicate ∈ first :: rest, predicate.IsFilled) :
    conjunction? (first.tokens ++ furtherTokens rest) = some (first :: rest) := by
  induction rest generalizing first with
  | nil => exact conjunction?_last (predicate?_tokens (filled first List.mem_cons_self) [])
  | cons next more inductionHypothesis =>
    have later : conjunction? (next.tokens ++ furtherTokens more) = some (next :: more) :=
      inductionHypothesis fun predicate member => filled predicate (List.mem_cons_of_mem first member)
    have read := predicate?_tokens (filled first List.mem_cons_self) (furtherTokens (next :: more))
    rw [conjunction?_and read]
    exact congrArg (Option.map (first :: ·)) later

/-- The predicates of a clause are read back. -/
theorem statement?_tokens {predicates : List Predicate}
    (filled : ∀ predicate ∈ predicates, predicate.IsFilled) :
    statement? (statementTokens predicates) = some predicates := by
  cases predicates with
  | nil => rfl
  | cons first rest => exact conjunction?_tokens filled

end EventSieve.Clause
