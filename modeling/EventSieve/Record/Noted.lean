/-!
# Values with notes

A computation that always has a value may note things on the way. The notes of
one computation stand before those of the next one.
-/

namespace EventSieve

/-- A value with the notes taken while it was computed. -/
structure Noted (ι α : Type) where
  value : α
  notes : List ι

namespace Noted

variable {ι α β : Type}

/-- A value about which there is nothing to note. -/
def clean (value : α) : Noted ι α := ⟨value, []⟩

/-- Goes on with a value; the new notes stand behind the old ones. -/
def andThen (first : Noted ι α) (next : α → Noted ι β) : Noted ι β :=
  let second := next first.value
  ⟨second.value, first.notes ++ second.notes⟩

instance : Monad (Noted ι) where
  pure := clean
  bind := andThen

/-- Takes one note. -/
def note (entry : ι) : Noted ι Unit := ⟨(), [entry]⟩

@[simp] theorem value_pure (value : α) : (pure value : Noted ι α).value = value := rfl

@[simp] theorem notes_pure (value : α) : (pure value : Noted ι α).notes = [] := rfl

@[simp] theorem value_bind (first : Noted ι α) (next : α → Noted ι β) :
    (first >>= next).value = (next first.value).value := rfl

@[simp] theorem notes_bind (first : Noted ι α) (next : α → Noted ι β) :
    (first >>= next).notes = first.notes ++ (next first.value).notes := rfl

@[simp] theorem value_note (entry : ι) : (note entry).value = () := rfl

@[simp] theorem notes_note (entry : ι) : (note entry).notes = [entry] := rfl

/-- Where computations are put into parts does not matter to the notes. -/
instance : LawfulMonad (Noted ι) :=
  LawfulMonad.mk' (Noted ι)
    (fun noted => congrArg (Noted.mk noted.value) (List.append_nil noted.notes))
    (fun _ _ => rfl)
    (fun noted next more => congrArg (Noted.mk _)
      (List.append_assoc noted.notes (next noted.value).notes _))

end Noted

end EventSieve
