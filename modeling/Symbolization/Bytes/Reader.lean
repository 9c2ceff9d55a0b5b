import Symbolization.Bytes.Cursor

/-!
# Readers

A reader takes a value from the bytes behind a cursor, or fails.  It never moves back and never
leaves the stretch, so a reader that takes at least one byte can be repeated until it stops.
-/

namespace Symbolization

/-- Reads a value and moves the cursor behind it. -/
structure Reader (α : Type) where
  run : Cursor → Option (α × Cursor)
  reaches : ∀ {first last value}, run first = some (value, last) → first.Reaches last

namespace Reader

variable {α β : Type}

def ret (value : α) : Reader α where
  run cursor := some (value, cursor)
  reaches := by
    intro first last value equality
    cases equality
    exact .refl _

/-- Reads one value and then another that may depend on it. -/
def andThen (reader : Reader α) (next : α → Reader β) : Reader β where
  run cursor :=
    match reader.run cursor with
    | none => none
    | some (value, middle) => (next value).run middle
  reaches := by
    intro first last value equality
    split at equality
    · contradiction
    · rename_i inner middle found
      exact (reader.reaches found).trans ((next inner).reaches equality)

instance : Monad Reader where
  pure := ret
  bind := andThen

def fail : Reader α where
  run _ := none
  reaches equality := by contradiction

def require (condition : Bool) : Reader Unit := if condition then ret () else fail

def ofOption : Option α → Reader α
  | none => fail
  | some value => ret value

/-- Takes at least one byte whenever it succeeds. -/
def Consumes (reader : Reader α) : Prop :=
  ∀ ⦃first last value⦄, reader.run first = some (value, last) → first.position < last.position

theorem Consumes.bind {reader : Reader α} (consumes : reader.Consumes) (next : α → Reader β) :
    (reader >>= next).Consumes := by
  intro first last value equality
  change (reader.andThen next).run first = some (value, last) at equality
  simp only [andThen] at equality
  split at equality
  · contradiction
  · rename_i inner middle found
    exact Nat.lt_of_lt_of_le (consumes found) ((next inner).reaches equality).position

theorem Consumes.remaining_lt {reader : Reader α} (consumes : reader.Consumes)
    {first last : Cursor} {value : α} (found : reader.run first = some (value, last)) :
    last.remaining < first.remaining :=
  (reader.reaches found).remaining_lt (consumes found)

def byte : Reader UInt8 where
  run cursor :=
    if inside : cursor.position < cursor.limit then
      some (cursor.bytes.get cursor.position (Nat.lt_of_lt_of_le inside cursor.limit_le),
        { cursor with position := cursor.position + 1, position_le := inside })
    else none
  reaches := by
    intro first last value equality
    by_cases inside : first.position < first.limit
    · have read := (dif_pos inside).symm.trans equality
      cases read
      exact ⟨rfl, rfl, rfl, Nat.le_succ _⟩
    · have read := (dif_neg inside).symm.trans equality
      contradiction

theorem byte_consumes : byte.Consumes := by
  intro first last value equality
  by_cases inside : first.position < first.limit
  · have read := (dif_pos inside).symm.trans equality
    cases read
    exact Nat.lt_succ_self _
  · have read := (dif_neg inside).symm.trans equality
    contradiction

def position : Reader Nat where
  run cursor := some (cursor.position, cursor)
  reaches := by
    intro first last value equality
    cases equality
    exact .refl _

def endian : Reader Endian where
  run cursor := some (cursor.endian, cursor)
  reaches := by
    intro first last value equality
    cases equality
    exact .refl _

/-- A cursor over the next `count` bytes, which are passed over. -/
def stretch (count : Nat) : Reader Cursor where
  run cursor :=
    match cursor.take? count, cursor.skip? count with
    | some part, some next => some (part, next)
    | _, _ => none
  reaches := by
    intro first last value equality
    split at equality
    · rename_i part next taken skipped
      cases equality
      exact Cursor.reaches_of_skip? skipped
    · contradiction

def skip (count : Nat) : Reader Unit := do
  let _ ← stretch count

/-- Reads a value inside the next `count` bytes and passes over all of them. -/
def within (count : Nat) (reader : Reader α) : Reader α := do
  let part ← stretch count
  ofOption ((reader.run part).map (·.1))

def replicate (count : Nat) (reader : Reader α) : Reader (List α) :=
  match count with
  | 0 => pure []
  | count + 1 => do
    let value ← reader
    let values ← replicate count reader
    pure (value :: values)

def number (count : Nat) : Reader Nat := do
  let order ← endian
  let bytes ← replicate count byte
  pure (order.value bytes)

theorem number_consumes {count : Nat} (positive : 0 < count) : (number count).Consumes := by
  match count, positive with
  | count + 1, _ =>
      intro first last value found
      exact (byte_consumes.bind _).bind _ found

/-- The values up to a stop, and the stop. -/
def collect (reader : Reader (α ⊕ β)) (consumes : reader.Consumes) (cursor : Cursor) :
    Option ((List α × β) × Cursor) :=
  match _ : reader.run cursor with
  | none => none
  | some (.inr stop, next) => some (([], stop), next)
  | some (.inl value, next) =>
    (collect reader consumes next).map fun rest => ((value :: rest.1.1, rest.1.2), rest.2)
  termination_by cursor.remaining
  decreasing_by exact consumes.remaining_lt (by assumption)

theorem reaches_of_collect {reader : Reader (α ⊕ β)} {consumes : reader.Consumes}
    {first last : Cursor} {values : List α × β}
    (found : collect reader consumes first = some (values, last)) :
    first.Reaches last ∧ first.position < last.position := by
  fun_induction collect reader consumes first generalizing values last with
  | case1 cursor failed => contradiction
  | case2 cursor stop next stopped =>
      cases found
      exact ⟨reader.reaches stopped, consumes stopped⟩
  | case3 cursor value next step induction =>
      obtain ⟨⟨rest, later⟩, after, equality⟩ := Option.map_eq_some_iff.mp found
      cases equality
      have both := induction after
      exact ⟨(reader.reaches step).trans both.1, Nat.lt_trans (consumes step) both.2⟩

/-- Repeats a reader until it answers with a stop. -/
def untilStop (reader : Reader (α ⊕ β)) (consumes : reader.Consumes) : Reader (List α × β) where
  run := collect reader consumes
  reaches found := (reaches_of_collect found).1

theorem untilStop_consumes (reader : Reader (α ⊕ β)) (consumes : reader.Consumes) :
    (untilStop reader consumes).Consumes :=
  fun _ _ _ found => (reaches_of_collect found).2

def stopAtNone : Option α → α ⊕ Unit
  | none => .inr ()
  | some value => .inl value

/-- Repeats a reader until it answers that there is no further value. -/
def untilNone (reader : Reader (Option α)) (consumes : reader.Consumes) : Reader (List α) :=
  untilStop (reader >>= fun value => pure (stopAtNone value)) (consumes.bind _) >>=
    fun values => pure values.1

theorem untilNone_consumes (reader : Reader (Option α)) (consumes : reader.Consumes) :
    (untilNone reader consumes).Consumes :=
  (untilStop_consumes _ _).bind _

/-- The values from a cursor on, up to a stop or to the first one that cannot be read. -/
def sequence (reader : Reader (Option α)) (consumes : reader.Consumes) (cursor : Cursor) :
    List α :=
  match _ : reader.run cursor with
  | none => []
  | some (none, _) => []
  | some (some value, next) => value :: sequence reader consumes next
  termination_by cursor.remaining
  decreasing_by exact consumes.remaining_lt (by assumption)

/-- The values that fill all the bytes behind a cursor, if every one of them can be read. -/
def filling? (reader : Reader α) (consumes : reader.Consumes) (cursor : Cursor) :
    Option (List α) :=
  if cursor.atEnd then some []
  else
    match _ : reader.run cursor with
    | none => none
    | some (value, next) => (filling? reader consumes next).map (value :: ·)
  termination_by cursor.remaining
  decreasing_by exact consumes.remaining_lt (by assumption)

/-- A byte of a text, or nothing at the zero byte that ends it. -/
def textByte : Reader (Option UInt8) := do
  let value ← byte
  pure (if value = 0 then none else some value)

/-- The bytes of a text up to the zero byte that ends it. -/
def text : Reader (List UInt8) := untilNone textByte (byte_consumes.bind _)

theorem text_consumes : text.Consumes :=
  untilNone_consumes textByte (byte_consumes.bind _)

def rest : Reader Cursor where
  run cursor := some (cursor, { cursor with position := cursor.limit, position_le := Nat.le_refl _ })
  reaches := by
    intro first last value equality
    cases equality
    exact ⟨rfl, rfl, rfl, first.position_le⟩

/-- The value at a place `offset` bytes behind the cursor. -/
def at? (reader : Reader α) (cursor : Cursor) (offset : Nat) : Option α := do
  let place ← cursor.skip? offset
  let (value, _) ← reader.run place
  pure value

end Reader

end Symbolization
