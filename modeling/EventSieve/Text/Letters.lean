import EventSieve.Text.Ascii

/-!
# Texts that agree up to case

Two texts agree up to the case of their ASCII letters when lowering them gives
the same characters. They are compared byte by byte, so nothing is built and the
first difference ends the comparison: the byte of an ASCII letter never occurs
inside a longer character, and so lowering the bytes of a text gives the bytes of
the lowered text. `sameLetters_iff` says that both views agree.
-/

namespace EventSieve.Text

/-- Lowers the byte of an ASCII letter. -/
def lowerByte (byte : UInt8) : UInt8 :=
  if 65 ≤ byte ∧ byte ≤ 90 then byte + 32 else byte

/-- Whether two texts agree up to case on a number of bytes from an index on. -/
def agreeFrom (left right : String) : Nat → Nat → Bool
  | _, 0 => true
  | index, count + 1 =>
    if inside : index < left.utf8ByteSize ∧ index < right.utf8ByteSize then
      lowerByte (left.getUTF8Byte ⟨index⟩ inside.1) == lowerByte (right.getUTF8Byte ⟨index⟩ inside.2) &&
        agreeFrom left right (index + 1) count
    else false

/-- Two texts agree up to the case of their ASCII letters. -/
def sameLetters (left right : String) : Bool :=
  left.utf8ByteSize == right.utf8ByteSize && agreeFrom left right 0 left.utf8ByteSize

/-- The bytes of a text. -/
def bytes (text : String) : List UInt8 :=
  text.toByteArray.data.toList

/-- A text has as many bytes as its size says. -/
theorem length_bytes (text : String) : (bytes text).length = text.utf8ByteSize := by
  rw [bytes, Array.length_toList]
  exact String.size_toByteArray

/-- The bytes of a text are those of its characters. -/
theorem bytes_eq_flatMap (text : String) : bytes text = text.toList.flatMap String.utf8EncodeChar := by
  rw [bytes, ← String.utf8Encode_toList, List.utf8Encode, List.toList_data_toByteArray]

/-- Different texts have different bytes. -/
theorem bytes_ofList_inj {left right : List Char}
    (same : bytes (String.ofList left) = bytes (String.ofList right)) : left = right :=
  String.ofList_inj.mp (String.toByteArray_inj.mp (ByteArray.ext (Array.toList_inj.mp same)))

/-- A byte outside ASCII has no case. -/
theorem lowerByte_of_high {value : Nat} (low : 128 ≤ value) (high : value < 256) :
    lowerByte (UInt8.ofNat value) = UInt8.ofNat value := by
  apply if_neg
  intro upper
  have bounded := UInt8.le_iff_toNat_le.mp upper.2
  rw [UInt8.toNat_ofNat_of_lt' high] at bounded
  have limit : (90 : UInt8).toNat = 90 := rfl
  omega

/-- The bytes of a character outside ASCII lie outside ASCII. -/
theorem map_lowerByte_of_high {character : Char} (high : 128 ≤ character.toNat) :
    (String.utf8EncodeChar character).map lowerByte = String.utf8EncodeChar character := by
  have value : character.val.toNat = character.toNat := rfl
  simp only [String.utf8EncodeChar, value]
  repeat' split
  · omega
  all_goals
    simp only [List.map_cons, List.map_nil]
    repeat rw [lowerByte_of_high (by omega) (by omega)]

/-- A character outside ASCII is its own small letter. -/
theorem toLower_of_high {character : Char} (high : 128 ≤ character.toNat) :
    character.toLower = character := by
  apply dif_neg
  intro upper
  have bounded : character.val.toNat ≤ 90 := UInt32.le_iff_toNat_le.mp upper.2
  have value : character.val.toNat = character.toNat := rfl
  omega

/-- Lowering the bytes of a character gives the bytes of the lowered character. -/
theorem map_lowerByte_encode (character : Char) :
    (String.utf8EncodeChar character).map lowerByte = String.utf8EncodeChar character.toLower := by
  by_cases ascii : character.toNat < 128
  · have all : ∀ code, code < 128 → (String.utf8EncodeChar (Char.ofNat code)).map lowerByte =
        String.utf8EncodeChar (Char.ofNat code).toLower := by decide
    simpa only [Char.ofNat_toNat] using all character.toNat ascii
  · have high := Nat.le_of_not_lt ascii
    rw [toLower_of_high high, map_lowerByte_of_high high]

/-- Lowering the bytes of a text gives the bytes of the lowered text. -/
theorem map_lowerByte_bytes (text : String) :
    (bytes text).map lowerByte = bytes (lower text) := by
  rw [bytes_eq_flatMap, bytes_eq_flatMap, lower, String.toList_ofList, lowerChars, List.map_flatMap,
    List.flatMap_map]
  simp only [map_lowerByte_encode]

/-- The byte at an index of a text. -/
theorem getElem_bytes {text : String} {index : Nat} (inside : index < text.utf8ByteSize) :
    (bytes text)[index]? = some (text.getUTF8Byte ⟨index⟩ inside) := by
  rw [List.getElem?_eq_getElem (by rw [length_bytes]; exact inside)]
  rfl

/-- The loop compares the lowered bytes that are left. The induction is on how many are
left; both texts have as many, so the loop never looks behind an end. -/
theorem agreeFrom_iff {left right : String} {index count : Nat}
    (leftEnd : index + count = left.utf8ByteSize) (rightEnd : index + count = right.utf8ByteSize) :
    agreeFrom left right index count = true ↔
      ((bytes left).drop index).map lowerByte = ((bytes right).drop index).map lowerByte := by
  induction count generalizing index with
  | zero =>
    have leftDone : (bytes left).length ≤ index := by rw [length_bytes]; omega
    have rightDone : (bytes right).length ≤ index := by rw [length_bytes]; omega
    simp [agreeFrom, List.drop_eq_nil_of_le leftDone, List.drop_eq_nil_of_le rightDone]
  | succ count inductionHypothesis =>
    have leftInside : index < left.utf8ByteSize := by omega
    have rightInside : index < right.utf8ByteSize := by omega
    have leftDrop := List.drop_eq_getElem_cons ((length_bytes left).symm ▸ leftInside)
    have rightDrop := List.drop_eq_getElem_cons ((length_bytes right).symm ▸ rightInside)
    have next := @inductionHypothesis (index + 1) (by omega) (by omega)
    rw [leftDrop, rightDrop, List.map_cons, List.map_cons, List.cons.injEq, ← next]
    simp only [agreeFrom, leftInside, rightInside, and_self, dif_pos, Bool.and_eq_true, beq_iff_eq]
    rfl

/-- Texts agree up to case exactly when their lowered characters are equal. -/
theorem sameLetters_iff (left right : String) :
    sameLetters left right = true ↔ lowerChars left.toList = lowerChars right.toList := by
  have lowered : (bytes left).map lowerByte = (bytes right).map lowerByte ↔
      lowerChars left.toList = lowerChars right.toList := by
    rw [map_lowerByte_bytes, map_lowerByte_bytes]
    exact ⟨bytes_ofList_inj, fun same => by rw [lower, lower, same]⟩
  rw [← lowered, sameLetters, Bool.and_eq_true, beq_iff_eq]
  constructor
  · rintro ⟨sizes, agree⟩
    exact (agreeFrom_iff (Nat.zero_add _) ((Nat.zero_add _).trans sizes)).mp agree
  · intro same
    have sizes : left.utf8ByteSize = right.utf8ByteSize := by
      simpa [length_bytes] using congrArg List.length same
    exact ⟨sizes, (agreeFrom_iff (Nat.zero_add _) ((Nat.zero_add _).trans sizes)).mpr same⟩

/-- Agreement up to case is symmetric. -/
theorem sameLetters_symm (left right : String) : sameLetters left right = sameLetters right left := by
  rw [Bool.eq_iff_iff, sameLetters_iff, sameLetters_iff, eq_comm]

example : sameLetters "GmT" "gMt" = true := by decide

end EventSieve.Text
