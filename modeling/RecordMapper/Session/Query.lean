import RecordMapper.Condition.Json
import RecordMapper.Session.Embedding

/-!
# Queries

A query selects rows of one model and says which relations to embed on the entities that they become.
-/

namespace RecordMapper

structure Query where
  schema : Schema
  select : Select
  tree : EmbedTree

namespace Query

def ofSchema (schema : Schema) : Query :=
  ⟨schema, schema.select, .nil⟩

/-! ## Building queries -/

def mapSelect (q : Query) (change : Select → Select) : Query :=
  { q with select := change q.select }

def addColumns (q : Query) (columns : List Column) : Query :=
  q.mapSelect fun s => s.addColumns columns

def addFilter (q : Query) (condition : Condition) : Query :=
  q.mapSelect fun s => s.addFilter condition

/-- Narrows the query by a condition in its JSON form. -/
def addJsonFilter (q : Query) (input : Json) : Attempt Query := do
  return q.addFilter (← Condition.ofJson input)

def addOrder (q : Query) (order : List Order) : Query :=
  q.mapSelect fun s => s.addOrder order

def addGroup (q : Query) (columns : List Column) : Query :=
  q.mapSelect fun s => s.addGroup columns

def addHaving (q : Query) (condition : Condition) : Query :=
  q.mapSelect fun s => s.addHaving condition

def setLimit (q : Query) (limit : UInt64) : Query :=
  q.mapSelect fun s => s.setLimit limit

def setOffset (q : Query) (offset : UInt64) : Query :=
  q.mapSelect fun s => s.setOffset offset

def setPage (q : Query) (page : UInt64) : Query :=
  q.mapSelect fun s => s.setPage page

def embed (q : Query) (paths : List String) : Query :=
  { q with tree := paths.foldl EmbedTree.insert q.tree }

/-! ## Running queries -/

def firstSelect (q : Query) : Select :=
  q.select.setLimit 1

/-- The selection of the number of rows, without columns, order and limit. -/
def countSelect (q : Query) : Select :=
  (((q.select.clearColumns).clearOrder).setLimit 0).addColumns
    [.expr (.call "count" []) (some "count")]

def countOf (rows : List Row) : Nat :=
  match ((rows.head?.bind fun row => row.get? "count").bind Value.asInteger?) with
  | some n => n.toInt.toNat
  | none => 0

def sql (db : Database) (q : Query) : Attempt String :=
  q.select.render db.dialect

variable {σ : Type}

def rows (db : Database) (q : Query) : Edit σ (List Row) :=
  db.execute (q.sql db)

def run (db : Database) (q : Query) (select : Select) : Edit σ (List Entity) :=
  db.load q.schema select (db.embed q.schema.model q.tree)

def all (db : Database) (q : Query) : Edit σ Collection := do
  return ⟨q.schema.model, ← q.run db q.select⟩

def first (db : Database) (q : Query) : Edit σ (Option Entity) := do
  return (← q.run db q.firstSelect).head?

/-- The number of rows of a query, whatever its columns, order and limit. -/
def count (db : Database) (q : Query) : Edit σ Nat := do
  return countOf (← db.execute (q.countSelect.render db.dialect))

end Query

namespace Database

def query (db : Database) (model : String) : Attempt Query := do
  return .ofSchema (← db.registry.schema model)

end Database

end RecordMapper
