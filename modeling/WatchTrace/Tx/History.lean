import WatchTrace.Tx.Program

/-!
# Rows with a history

Some guarantees speak of what has been done and not only of what is there. The
rows may not tell: a row that was taken away looks like one that never was. So
a database can carry notes next to its rows. A statement may leave a note, which
is committed and rolled back with everything else its transaction does, and no
statement can read one. What a program does to the rows is therefore what it
would do without them.
-/

namespace WatchTrace.Tx

/-- Rows, and what is remembered of how they came to be. -/
structure Noted (DB Note : Type) where
  rows : DB
  notes : List Note

variable {DB Note Key Env α : Type}

/-- A statement that leaves a note. -/
def Stmt.noting (note : Env → List Note) (q : Stmt DB Key Env α) : Stmt (Noted DB Note) Key Env α :=
  fun begun env busy db => (q begun env busy db.rows).map fun e =>
    { value := e.value
      write := fun db => { rows := e.write db.rows, notes := db.notes ++ note env }
      locks := e.locks }

/-- A statement about the rows alone. -/
def Stmt.plain (q : Stmt DB Key Env α) : Stmt (Noted DB Note) Key Env α :=
  q.noting fun _ => []

/-- What a statement with a note did. -/
theorem Stmt.noting_some {note : Env → List Note} {q : Stmt DB Key Env α}
    {begun env : Env} {busy : Key → Bool} {db : Noted DB Note}
    {e : Effect (Noted DB Note) Key α} (h : q.noting note begun env busy db = some e) :
    ∃ e', q begun env busy db.rows = some e' ∧ e.value = e'.value ∧ e.locks = e'.locks ∧
      ∀ db', e.write db' = { rows := e'.write db'.rows, notes := db'.notes ++ note env } := by
  obtain ⟨e', he', rfl⟩ := Option.map_eq_some_iff.mp h
  exact ⟨e', he', rfl, rfl, fun _ => rfl⟩

/-- The notes a transaction would add. -/
def Open.pending (o : Open (Noted DB Note) Key Env) (db : Noted DB Note) : List Note :=
  (o.write { db with notes := [] }).notes

end WatchTrace.Tx
