import RecordMapper.Registry
import RecordMapper.Session.Edit

/-!
# Databases

A connection answers statements in the light of those sent before.  A database is a connection
together with the models whose rows it holds.
-/

namespace RecordMapper

structure Connection where
  platform : Platform
  /-- The rows that answer a statement, or a report of a failure, given what was sent before. -/
  answer : Log → String → Except String (List Row)
  /-- The key that the last insert gave to its row, given what was sent. -/
  lastInsertId? : Log → Option Value

structure Database where
  connection : Connection
  registry : Registry

namespace Database

variable {σ : Type}

def dialect (db : Database) : Dialect :=
  db.connection.platform.dialect

def send (db : Database) (sql : String) : Edit σ (List Row) :=
  fun subject log =>
    ⟨(db.connection.answer log sql).mapError Error.backend, subject, log ++ [sql]⟩

@[simp] theorem send_apply (db : Database) (sql : String) (subject : σ) (log : Log) :
    db.send sql subject log =
      ⟨(db.connection.answer log sql).mapError Error.backend, subject, log ++ [sql]⟩ :=
  rfl

/-- Sends a statement if it can be written. -/
def execute (db : Database) (sql : Attempt String) : Edit σ (List Row) := do
  db.send (← sql)

def lastInsertId? (db : Database) : Edit σ (Option Value) := do
  return db.connection.lastInsertId? (← Edit.sent)

def createTable (db : Database) (model : String) : Edit σ Unit := do
  let schema ← db.registry.schema model
  let _ ← db.execute (schema.createTable.render db.connection.platform)

def dropTable (db : Database) (model : String) : Edit σ Unit := do
  let schema ← db.registry.schema model
  let _ ← db.execute (schema.dropTable.render db.dialect)

end Database

end RecordMapper
