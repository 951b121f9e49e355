/-!
# Parts of a text by numbers of bytes

The parts of a text may be named by the numbers of bytes in front of them, as they are
stored. A number that falls inside a character names no place, so a part is only there
when both of its ends fall between characters.
-/

namespace EventSieve.Text

/-- The number of bytes of a text. -/
def size (text : List Char) : Nat :=
  (String.ofList text).utf8ByteSize

/-- A text in two parts at a number of bytes, behind characters that have already been
passed, the last of them first; inside a character there is no such place. -/
def splitBytesAfter? (passed : List Char) : Nat → List Char → Option (List Char × List Char)
  | 0, text => some (passed.reverse, text)
  | _ + 1, [] => none
  | bytes + 1, character :: rest =>
    if character.utf8Size ≤ bytes + 1 then
      splitBytesAfter? (character :: passed) (bytes + 1 - character.utf8Size) rest
    else none

/-- The part of a text between two numbers of bytes. -/
def slice? (start stop : Nat) (text : List Char) : Option (List Char) :=
  (splitBytesAfter? [] start text).bind fun parts =>
    (splitBytesAfter? [] (stop - start) parts.2).map (·.1)

/-- The bytes of a text are those of its first character and of the rest. -/
theorem size_cons (character : Char) (rest : List Char) :
    size (character :: rest) = character.utf8Size + size rest := by
  rw [size, size, String.ofList_cons, String.utf8ByteSize_append, String.utf8ByteSize_singleton]

/-- A text in two parts takes the bytes of both. -/
theorem size_append (front back : List Char) : size (front ++ back) = size front + size back := by
  rw [size, size, size, String.ofList_append, String.utf8ByteSize_append]

/-- Behind the bytes of its front a text is split into the front and the rest. -/
theorem splitBytesAfter?_append (passed front back : List Char) :
    splitBytesAfter? passed (size front) (front ++ back) = some (passed.reverse ++ front, back) := by
  induction front generalizing passed with
  | nil => simp [size, splitBytesAfter?]
  | cons character rest inductionHypothesis =>
    have positive := character.utf8Size_pos
    obtain ⟨bytes, same⟩ : ∃ bytes, size (character :: rest) = bytes + 1 :=
      ⟨size (character :: rest) - 1, by rw [size_cons]; omega⟩
    have whole := size_cons character rest
    have left : bytes + 1 - character.utf8Size = size rest := by omega
    rw [same, List.cons_append, splitBytesAfter?, if_pos (by omega), left, inductionHypothesis,
      List.reverse_cons, List.append_assoc, List.singleton_append]

/-- The part of a text between the bytes of what stands in front of it and those of it. -/
theorem slice?_append (front part back : List Char) :
    slice? (size front) (size front + size part) (front ++ (part ++ back)) = some part := by
  rw [slice?, splitBytesAfter?_append, Option.bind_some, Nat.add_sub_cancel_left,
    splitBytesAfter?_append, Option.map_some]
  rfl

end EventSieve.Text
