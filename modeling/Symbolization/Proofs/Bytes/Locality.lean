import Symbolization.Bytes.Reader

/-!
# The bytes a reader looks at

A reader of a fixed length looks at that many bytes and at no others, and a text is read from the
bytes before the limit.  Where these are the same, the values are, whatever stands elsewhere.
-/

namespace Symbolization

theorem extract_congr {left right : ByteArray} {first last : Nat} (size : right.size = left.size)
    (same : ∀ place, first ≤ place → place < last → left[place]? = right[place]?) :
    right.extract first last = left.extract first last := by
  apply ByteArray.ext_getElem
  · rw [ByteArray.size_extract, ByteArray.size_extract, size]
  · intro index insideRight insideLeft
    rw [ByteArray.size_extract] at insideRight insideLeft
    rw [ByteArray.getElem_extract, ByteArray.getElem_extract]
    have equal := same (first + index) (by omega) (by omega)
    rw [getElem?_pos left (first + index) (by omega),
      getElem?_pos right (first + index) (by omega)] at equal
    exact (Option.some.inj equal).symm

namespace Cursor

/-- The cursors stand at the same place, and as far as there are any, the next `count` bytes are the
same for both. -/
structure SeesAlike (count : Nat) (left right : Cursor) : Prop where
  endian : left.endian = right.endian
  position : left.position = right.position
  limit : left.limit = right.limit
  bytes : ∀ place, left.position ≤ place → place < left.position + count → place < left.limit →
    left.bytes[place]? = right.bytes[place]?

namespace SeesAlike

variable {count rest : Nat} {left right : Cursor}

theorem mono (alike : left.SeesAlike count right) (fewer : rest ≤ count) :
    left.SeesAlike rest right := by
  refine ⟨alike.endian, alike.position, alike.limit, ?_⟩
  intro place behind before inside
  exact alike.bytes place behind (by omega) inside

theorem of_remaining (alike : left.SeesAlike left.remaining right) (count : Nat) :
    left.SeesAlike count right := by
  refine ⟨alike.endian, alike.position, alike.limit, ?_⟩
  intro place behind _ inside
  have start := left.position_le
  exact alike.bytes place behind (by simp only [remaining]; omega) inside

/-- What is seen alike is so still after the first bytes of it were read. -/
theorem after {left' right' : Cursor} (alike : left.SeesAlike (count + rest) right)
    (reaches : left.Reaches left') (position : left'.position = left.position + count)
    (reaches' : right.Reaches right') (position' : right'.position = right.position + count) :
    left'.SeesAlike rest right' where
  endian := by rw [reaches.endian, reaches'.endian, alike.endian]
  position := by rw [position, position', alike.position]
  limit := by rw [reaches.limit, reaches'.limit, alike.limit]
  bytes place behind before inside := by
    rw [reaches.limit] at inside
    rw [reaches.bytes, reaches'.bytes]
    exact alike.bytes place (by omega) (by omega) inside

end SeesAlike

end Cursor

namespace Reader

variable {α β : Type}

theorem run_bind (reader : Reader α) (next : α → Reader β) (cursor : Cursor) :
    (reader >>= next).run cursor =
      (reader.run cursor).bind fun found => (next found.1).run found.2 := by
  change (reader.andThen next).run cursor = _
  cases read : reader.run cursor <;> simp only [andThen, read, Option.bind_none, Option.bind_some]

theorem run_skip (count : Nat) (cursor : Cursor) :
    (Reader.skip count).run cursor = (cursor.skip? count).map fun next => ((), next) := by
  change (stretch count >>= fun _ => pure ()).run cursor = _
  rw [run_bind]
  by_cases inside : cursor.position + count ≤ cursor.limit
  · simp only [stretch, Cursor.take?, Cursor.skip?, dif_pos inside]
    rfl
  · simp only [stretch, Cursor.take?, Cursor.skip?, dif_neg inside]
    rfl

theorem byte_of_lt {cursor : Cursor} (inside : cursor.position < cursor.limit) :
    ∃ value next, byte.run cursor = some (value, next) ∧
      cursor.bytes[cursor.position]? = some value ∧ next.position = cursor.position + 1 :=
  ⟨_, _, dif_pos inside, getElem?_pos cursor.bytes _ _, rfl⟩

theorem byte_of_not_lt {cursor : Cursor} (outside : ¬ cursor.position < cursor.limit) :
    byte.run cursor = none :=
  dif_neg outside

/-- Takes `count` bytes if there are that many, and looks at nothing else. -/
structure Takes (reader : Reader α) (count : Nat) : Prop where
  isSome_run : ∀ cursor,
    (reader.run cursor).isSome ↔ cursor.position + count ≤ cursor.limit
  position : ∀ {first last : Cursor} {value : α},
    reader.run first = some (value, last) → last.position = first.position + count
  congr : ∀ {left right : Cursor}, left.SeesAlike count right →
    (reader.run left).map (·.1) = (reader.run right).map (·.1)

namespace Takes

variable {reader : Reader α} {count : Nat}

/-- Cursors that see the same bytes get the same value and see the same behind it. -/
theorem step (takes : reader.Takes count) {left right : Cursor} {rest : Nat}
    (alike : left.SeesAlike (count + rest) right) :
    (reader.run left = none ∧ reader.run right = none) ∨
      ∃ value left' right', reader.run left = some (value, left') ∧
        reader.run right = some (value, right') ∧ left'.SeesAlike rest right' := by
  have same := takes.congr (alike.mono (Nat.le_add_right count rest))
  cases readLeft : reader.run left with
  | none =>
      rw [readLeft, Option.map_none] at same
      exact .inl ⟨rfl, Option.map_eq_none_iff.mp same.symm⟩
  | some found =>
      rw [readLeft, Option.map_some] at same
      obtain ⟨⟨value, right'⟩, readRight, equal⟩ := Option.map_eq_some_iff.mp same.symm
      obtain ⟨first, left'⟩ := found
      cases equal
      exact .inr ⟨value, left', right', rfl, readRight,
        alike.after (reader.reaches readLeft) (takes.position readLeft)
          (reader.reaches readRight) (takes.position readRight)⟩

theorem pure (value : α) : (pure value : Reader α).Takes 0 where
  isSome_run cursor := iff_of_true rfl cursor.position_le
  position read := by
    cases read
    rfl
  congr _ := rfl

theorem bind {next : α → Reader β} {rest : Nat} (takes : reader.Takes count)
    (nextTakes : ∀ value, (next value).Takes rest) : (reader >>= next).Takes (count + rest) where
  isSome_run cursor := by
    have enough := takes.isSome_run cursor
    rw [run_bind]
    cases read : reader.run cursor with
    | none =>
        simp only [read, Option.isSome_none, Bool.false_eq_true, false_iff] at enough
        simp only [Option.bind_none, Option.isSome_none, Bool.false_eq_true, false_iff]
        omega
    | some found =>
        have moved := takes.position read
        have limit := (reader.reaches read).limit
        rw [Option.bind_some, (nextTakes found.1).isSome_run, moved, limit, Nat.add_assoc]
  position {first last value} read := by
    rw [run_bind] at read
    obtain ⟨⟨inner, middle⟩, before, after⟩ := Option.bind_eq_some_iff.mp read
    have moved := (nextTakes inner).position after
    rw [moved, takes.position before, Nat.add_assoc]
  congr {left right} alike := by
    rw [run_bind, run_bind]
    obtain ⟨failsLeft, failsRight⟩ | ⟨value, left', right', readLeft, readRight, later⟩ :=
      takes.step alike
    · rw [failsLeft, failsRight]
    · rw [readLeft, readRight]
      exact (nextTakes value).congr later

theorem endian : Reader.endian.Takes 0 where
  isSome_run cursor := iff_of_true rfl cursor.position_le
  position read := by
    cases read
    rfl
  congr alike := congrArg some alike.endian

theorem byte : Reader.byte.Takes 1 where
  isSome_run cursor := by
    by_cases inside : cursor.position < cursor.limit
    · obtain ⟨value, next, read, _⟩ := byte_of_lt inside
      rw [read]
      exact iff_of_true rfl inside
    · rw [byte_of_not_lt inside]
      exact iff_of_false Bool.false_ne_true inside
  position {first last value} read := by
    by_cases inside : first.position < first.limit
    · obtain ⟨_, _, found, _, moved⟩ := byte_of_lt inside
      cases found.symm.trans read
      exact moved
    · rw [byte_of_not_lt inside] at read
      contradiction
  congr {left right} alike := by
    by_cases inside : left.position < left.limit
    · have insideRight : right.position < right.limit := alike.position ▸ alike.limit ▸ inside
      obtain ⟨value, next, readLeft, here, _⟩ := byte_of_lt inside
      obtain ⟨other, after, readRight, there, _⟩ := byte_of_lt insideRight
      have same := alike.bytes left.position (Nat.le_refl _) (by omega) inside
      rw [here, alike.position, there] at same
      rw [readLeft, readRight]
      exact same
    · have outside : ¬ right.position < right.limit := alike.position ▸ alike.limit ▸ inside
      rw [byte_of_not_lt inside, byte_of_not_lt outside]

theorem skip (count : Nat) : (Reader.skip count).Takes count where
  isSome_run cursor := by
    rw [run_skip, Option.isSome_map, Cursor.skip?]
    split <;> simp [*]
  position read := by
    rw [run_skip] at read
    obtain ⟨next, skipped, equal⟩ := Option.map_eq_some_iff.mp read
    cases equal
    exact Cursor.position_of_skip? skipped
  congr {left right} alike := by
    rw [run_skip, run_skip, Cursor.skip?, Cursor.skip?]
    simp only [alike.position, alike.limit]
    split <;> rfl

theorem replicate (takes : reader.Takes count) (times : Nat) :
    (Reader.replicate times reader).Takes (times * count) := by
  induction times with
  | zero =>
      rw [Nat.zero_mul]
      exact pure []
  | succ times induction =>
      have all := takes.bind fun value => induction.bind fun values => pure (value :: values)
      rw [Nat.add_zero, Nat.add_comm, ← Nat.succ_mul] at all
      exact all

theorem of_eq {total : Nat} (takes : reader.Takes count) (same : count = total) :
    reader.Takes total :=
  same ▸ takes

theorem number (count : Nat) : (Reader.number count).Takes count := by
  have all := endian.bind fun order =>
    (byte.replicate count).bind fun bytes => pure (order.value bytes)
  rwa [Nat.mul_one, Nat.add_zero, Nat.zero_add] at all

end Takes

theorem length_of_replicate {reader : Reader α} {times : Nat} {values : List α}
    {first last : Cursor} (read : (replicate times reader).run first = some (values, last)) :
    values.length = times := by
  induction times generalizing values first with
  | zero =>
      cases read
      rfl
  | succ times induction =>
      rw [replicate, run_bind] at read
      obtain ⟨⟨value, middle⟩, _, behind⟩ := Option.bind_eq_some_iff.mp read
      rw [run_bind] at behind
      obtain ⟨⟨others, next⟩, later, equal⟩ := Option.bind_eq_some_iff.mp behind
      cases equal
      rw [List.length_cons, induction later]

/-! Texts. -/

section

variable {reader : Reader (α ⊕ β)} {consumes : reader.Consumes} {cursor next : Cursor}

theorem collect_of_none (failed : reader.run cursor = none) :
    collect reader consumes cursor = none := by
  rw [collect]
  split <;> simp_all

theorem collect_of_stop {stop : β} (stopped : reader.run cursor = some (.inr stop, next)) :
    collect reader consumes cursor = some (([], stop), next) := by
  rw [collect]
  split <;> simp_all

theorem collect_of_value {value : α} (read : reader.run cursor = some (.inl value, next)) :
    collect reader consumes cursor =
      (collect reader consumes next).map fun rest =>
        ((value :: rest.1.1, rest.1.2), rest.2) := by
  rw [collect]
  split <;> simp_all

end

/-- Values up to a stop are the same where all bytes before the limit are. -/
theorem collect_congr {reader : Reader (α ⊕ β)} {count : Nat} (takes : reader.Takes count)
    (consumes : reader.Consumes) {left right : Cursor}
    (alike : left.SeesAlike left.remaining right) :
    (collect reader consumes left).map (·.1) = (collect reader consumes right).map (·.1) := by
  have step := takes.step (alike.of_remaining (count + left.remaining))
  fun_induction collect reader consumes left generalizing right with
  | case1 left failed =>
      obtain ⟨_, failsRight⟩ | ⟨value, left', right', readLeft, _⟩ := step
      · rw [collect_of_none failsRight]
      · rw [failed] at readLeft
        contradiction
  | case2 left stop next stopped =>
      obtain ⟨failsLeft, _⟩ | ⟨value, left', right', readLeft, readRight, _⟩ := step
      · rw [stopped] at failsLeft
        contradiction
      · rw [stopped] at readLeft
        cases readLeft
        rw [collect_of_stop readRight]
        rfl
  | case3 left value next read induction =>
      obtain ⟨failsLeft, _⟩ | ⟨found, left', right', readLeft, readRight, later⟩ := step
      · rw [read] at failsLeft
        contradiction
      · rw [read] at readLeft
        cases readLeft
        have rest : next.SeesAlike next.remaining right' :=
          later.mono (reader.reaches read).remaining_le
        have same := induction rest (takes.step (rest.of_remaining _))
        rw [collect_of_value readRight, Option.map_map, Option.map_map]
        have more := congrArg
          (Option.map fun values : List α × β => (value :: values.1, values.2)) same
        rwa [Option.map_map, Option.map_map] at more

theorem untilNone_congr {reader : Reader (Option α)} {count : Nat} (takes : reader.Takes count)
    (consumes : reader.Consumes) {left right : Cursor}
    (alike : left.SeesAlike left.remaining right) :
    ((untilNone reader consumes).run left).map (·.1) =
      ((untilNone reader consumes).run right).map (·.1) := by
  have same := collect_congr (takes.bind fun value => .pure (stopAtNone value))
    (consumes.bind _) alike
  have values : ∀ cursor, ((untilNone reader consumes).run cursor).map (·.1) =
      ((collect (reader >>= fun value => pure (stopAtNone value)) (consumes.bind _) cursor).map
        (·.1)).map (·.1) := by
    intro cursor
    change ((untilStop _ _ >>= fun values => pure values.1).run cursor).map _ = _
    rw [run_bind]
    change ((collect _ _ cursor).bind _).map _ = _
    cases collect _ _ cursor <;> rfl
  rw [values, values, same]

theorem text_congr {left right : Cursor} (alike : left.SeesAlike left.remaining right) :
    (text.run left).map (·.1) = (text.run right).map (·.1) := by
  have takes : textByte.Takes (1 + 0) := Takes.byte.bind fun value => .pure _
  exact untilNone_congr takes _ alike

/-! Values at an offset. -/

theorem at?_eq (reader : Reader α) (cursor : Cursor) (offset : Nat) :
    reader.at? cursor offset =
      (cursor.skip? offset).bind fun place => (reader.run place).map (·.1) := by
  cases skipped : cursor.skip? offset with
  | none => simp only [at?, skipped, Option.bind_eq_bind, Option.bind_none]
  | some place =>
      simp only [at?, skipped, Option.bind_eq_bind, Option.bind_some]
      cases reader.run place <;> rfl

/-- What a reader finds at an offset is the same where the bytes are that it looks at. -/
theorem at?_congr {reader : Reader α} {left right : Cursor} {offset count : Nat}
    (congr : ∀ {left' right' : Cursor}, left'.limit = left.limit → left'.SeesAlike count right' →
      (reader.run left').map (·.1) = (reader.run right').map (·.1))
    (start : left.SeesAlike 0 right)
    (bytes : ∀ place, left.position + offset ≤ place → place < left.position + offset + count →
      place < left.limit → left.bytes[place]? = right.bytes[place]?) :
    reader.at? left offset = reader.at? right offset := by
  rw [at?_eq, at?_eq, Cursor.skip?, Cursor.skip?]
  by_cases inside : left.position + offset ≤ left.limit
  · have insideRight : right.position + offset ≤ right.limit :=
      start.position ▸ start.limit ▸ inside
    rw [dif_pos inside, dif_pos insideRight, Option.bind_some, Option.bind_some]
    refine congr ?_ ⟨start.endian, ?_, start.limit, bytes⟩
    · rfl
    · exact congrArg (· + offset) start.position
  · have outside : ¬ right.position + offset ≤ right.limit :=
      start.position ▸ start.limit ▸ inside
    rw [dif_neg inside, dif_neg outside]

end Reader

end Symbolization
