import Symbolization.Proofs.Bytes.Locality

/-!
# Parts and repetitions

What is read of a stretch of the bytes, and what a reader gives that is repeated: each value is read
behind the one before, until there is none any more or until one cannot be read.
-/

namespace Symbolization

namespace Reader

variable {α β : Type} {first last next part : Cursor} {count : Nat} {value : α}

theorem exists_of_bind {reader : Reader β} {behind : β → Reader α}
    (read : (reader >>= behind).run first = some (value, last)) :
    ∃ inner middle, reader.run first = some (inner, middle) ∧
      (behind inner).run middle = some (value, last) := by
  rw [run_bind] at read
  obtain ⟨⟨inner, middle⟩, before, after⟩ := Option.bind_eq_some_iff.mp read
  exact ⟨inner, middle, before, after⟩

theorem of_stretch (read : (stretch count).run first = some (part, last)) :
    part.position = first.position ∧ part.limit = first.position + count ∧
      last.position = first.position + count := by
  by_cases inside : first.position + count ≤ first.limit
  · simp only [stretch, Cursor.take?, Cursor.skip?, dif_pos inside] at read
    cases read
    exact ⟨rfl, rfl, rfl⟩
  · simp only [stretch, Cursor.take?, Cursor.skip?, dif_neg inside] at read
    contradiction

theorem of_ofOption {found : Option α} (read : (ofOption found).run first = some (value, last)) :
    found = some value ∧ last = first := by
  cases found with
  | none => contradiction
  | some other =>
      cases read
      exact ⟨rfl, rfl⟩

/-! A sequence goes on as long as values are read. -/

section Sequence

variable {reader : Reader (Option α)} {consumes : reader.Consumes}

theorem sequence_of_none (failed : reader.run first = none) :
    sequence reader consumes first = [] := by
  rw [sequence]
  split <;> simp_all

theorem sequence_of_value (read : reader.run first = some (some value, next)) :
    sequence reader consumes first = value :: sequence reader consumes next := by
  rw [sequence]
  split <;> simp_all

theorem sequence_of_stop (stopped : reader.run first = some (none, next)) :
    sequence reader consumes first = [] := by
  rw [sequence]
  split <;> simp_all

/-- What holds of every value that is read behind a place holds of all values of the sequence. -/
theorem forall_mem_sequence {holds : α → Prop} {place : Cursor}
    (each : ∀ first value last, place.Reaches first →
      reader.run first = some (some value, last) → holds value) :
    ∀ value ∈ sequence reader consumes place, holds value := by
  induction remaining : place.remaining using Nat.strongRecOn generalizing place with
  | ind _ induction =>
      intro value member
      cases read : reader.run place with
      | none =>
          rw [sequence_of_none read] at member
          contradiction
      | some found =>
          obtain ⟨_ | head, next⟩ := found
          · rw [sequence_of_stop read] at member
            contradiction
          · rw [sequence_of_value read] at member
            rcases List.mem_cons.mp member with rfl | later
            · exact each place _ next (.refl place) read
            · have less := consumes.remaining_lt read
              refine induction _ (remaining ▸ less) ?_ rfl value later
              intro first value last behind
              exact each first value last ((reader.reaches read).trans behind)

end Sequence

/-! Values that fill the bytes are read up to the end of the bytes. -/

section Filling

variable {reader : Reader α} {consumes : reader.Consumes}

theorem Consumes.not_atEnd (consumes : reader.Consumes)
    (read : reader.run first = some (value, next)) : first.atEnd = false := by
  have moved := consumes read
  have limit := (reader.reaches read).limit
  have inside := next.position_le
  rw [Cursor.atEnd, beq_eq_false_iff_ne]
  omega

theorem filling?_of_atEnd (atEnd : first.atEnd) : filling? reader consumes first = some [] := by
  rw [filling?, if_pos atEnd]

theorem filling?_of_none (more : first.atEnd = false) (failed : reader.run first = none) :
    filling? reader consumes first = none := by
  rw [filling?, more, if_neg Bool.false_ne_true]
  split <;> simp_all

theorem filling?_of_value (read : reader.run first = some (value, next)) :
    filling? reader consumes first = (filling? reader consumes next).map (value :: ·) := by
  rw [filling?, consumes.not_atEnd read, if_neg Bool.false_ne_true]
  split <;> simp_all

end Filling

end Reader

end Symbolization
