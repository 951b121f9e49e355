/-!
# Fingerprints of windows

A fingerprint is a word of 64 bits computed from a row of characters. Equal rows
have equal fingerprints, so a row whose fingerprint differs from that of a word
need not be compared with the word.

The fingerprint of a window changes by a fixed rule when the window slides by one
character. One pass over a text therefore tells for every place whether a given
word may stand there, however long the word is: `mayStart_of_prefix` says that no
place where it does stand is missed.
-/

namespace EventSieve.Text

/-- The factor by which a fingerprint grows with every character. -/
def fingerprintBase : UInt64 := 1099511628211

/-- The number of a character in fingerprints. -/
def fingerprintCode (character : Char) : UInt64 :=
  character.val.toUInt64

/-- A fingerprint after more characters. -/
def fingerprintFrom (start : UInt64) (row : List Char) : UInt64 :=
  row.foldl (fun value character => value * fingerprintBase + fingerprintCode character) start

/-- The fingerprint of a row of characters. -/
def fingerprint (row : List Char) : UInt64 :=
  fingerprintFrom 0 row

/-- How much a character in front of a row of some length counts. -/
def fingerprintWeight : Nat → UInt64
  | 0 => 1
  | length + 1 => fingerprintWeight length * fingerprintBase

/-- The fingerprint of a window without its first character and with one more at
its end. The weight is that of a row as long as the window. -/
def slide (weight value : UInt64) (first next : Char) : UInt64 :=
  value * fingerprintBase + fingerprintCode next - fingerprintCode first * weight

/-- Whether the window has a given fingerprint, at every place from the front of a
text on. The second text is the one behind the window. -/
def windowsAgree (weight target : UInt64) : UInt64 → List Char → List Char → List Bool
  | value, first :: text, next :: ahead =>
    (value == target) :: windowsAgree weight target (slide weight value first next) text ahead
  | value, _, _ => [value == target]

/-- Whether a word may stand at each place of a text. Places from which the text is
too short for the word are left out. -/
def mayStart (word text : List Char) : List Bool :=
  let size := word.length
  if size ≤ text.length then
    windowsAgree (fingerprintWeight size) (fingerprint word) (fingerprint (text.take size)) text
      (text.drop size)
  else []

/-- What stands in front of a row counts by the weight of the row. -/
theorem fingerprintFrom_eq (start : UInt64) (row : List Char) :
    fingerprintFrom start row = start * fingerprintWeight row.length + fingerprint row := by
  induction row generalizing start with
  | nil => simp [fingerprintFrom, fingerprint, fingerprintWeight]
  | cons character rest inductionHypothesis =>
    have step (value : UInt64) : fingerprintFrom value (character :: rest) =
        fingerprintFrom (value * fingerprintBase + fingerprintCode character) rest := rfl
    rw [fingerprint, step, step, inductionHypothesis, inductionHypothesis (0 * _ + _),
      List.length_cons, fingerprintWeight]
    grind

/-- Sliding gives the fingerprint of the next window. -/
theorem slide_fingerprint (first next : Char) (row : List Char) :
    slide (fingerprintWeight (row.length + 1)) (fingerprint (first :: row)) first next =
      fingerprint (row ++ [next]) := by
  have front : fingerprint (first :: row) =
      (0 * fingerprintBase + fingerprintCode first) * fingerprintWeight row.length +
        fingerprint row := fingerprintFrom_eq _ row
  have back : fingerprint (row ++ [next]) =
      fingerprint row * fingerprintBase + fingerprintCode next := by
    simp [fingerprint, fingerprintFrom, List.foldl_append]
  rw [slide, front, back, fingerprintWeight]
  grind

/-- A word that stands at a place has the fingerprint of the window there.

Proof: by induction on what lies ahead of the window. At the front the window is the word
itself; otherwise the window is moved by one character, and the fingerprint of the moved
window is the slid one. Other windows can have the same fingerprint, so there is no
converse. -/
theorem windowsAgree_of_prefix {word text ahead : List Char} {value : UInt64} {place : Nat}
    (positive : 0 < word.length) (fits : word.length ≤ text.length)
    (behind : ahead = text.drop word.length) (window : value = fingerprint (text.take word.length))
    (stands : word <+: text.drop place) :
    (windowsAgree (fingerprintWeight word.length) (fingerprint word) value text ahead)[place]? =
      some true := by
  have length_le : word.length ≤ text.length - place := by
    simpa using stands.length_le
  induction ahead generalizing text value place with
  | nil =>
    have short : text.length ≤ word.length := List.drop_eq_nil_iff.mp behind.symm
    have front : place = 0 := by omega
    subst front
    have whole : word = text := stands.eq_of_length_le short
    have same : value = fingerprint word := by rw [window, ← whole, List.take_length]
    cases text <;> simp [windowsAgree, same]
  | cons next ahead inductionHypothesis =>
    obtain ⟨size, sized⟩ : ∃ size, word.length = size + 1 := ⟨word.length - 1, by omega⟩
    cases text with
    | nil => simp at behind
    | cons first rest =>
      cases place with
      | zero =>
        have front : word = (first :: rest).take word.length := List.prefix_iff_eq_take.mp stands
        have same : value = fingerprint word := by rw [window, ← front]
        simp [windowsAgree, same]
      | succ place =>
        have later : next :: ahead = rest.drop size := by simpa [sized] using behind
        have inside : size < rest.length := by
          have lengths := congrArg List.length later
          rw [List.length_cons, List.length_drop] at lengths
          omega
        have moved : slide (fingerprintWeight word.length) value first next =
            fingerprint (rest.take word.length) := by
          have weight : (rest.take size).length = size := by simp; omega
          have slid := slide_fingerprint first next (rest.take size)
          rw [weight] at slid
          have added : rest[size]? = some next := by
            rw [← List.head?_drop, ← later, List.head?_cons]
          rw [window, sized, List.take_succ_cons, slid, List.take_add_one, added]
          rfl
        have beyond : ahead = rest.drop word.length := by
          rw [sized, ← List.drop_drop, ← later]
          rfl
        exact inductionHypothesis (by omega) beyond moved stands (by simpa using length_le)

/-- No place where a word stands is missed. -/
theorem mayStart_of_prefix {word text : List Char} {place : Nat} (positive : 0 < word.length)
    (stands : word <+: text.drop place) : (mayStart word text)[place]? = some true := by
  have fits : word.length ≤ text.length := by
    have length_le := stands.length_le
    rw [List.length_drop] at length_le
    omega
  rw [mayStart, if_pos fits]
  exact windowsAgree_of_prefix positive fits rfl rfl stands

example : mayStart ['a', 'b'] ['a', 'a', 'b', 'a'] = [false, true, false] := by decide +kernel

end EventSieve.Text
