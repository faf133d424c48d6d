import RecordMapper.EmbedTree
import RecordMapper.Entity.Collection
import RecordMapper.Schema.Cast
import RecordMapper.Session.Database
import RecordMapper.Statement.Select

/-!
# Embedding

Embedding attaches the related entities of a relation to all owners with one selection: the keys of
all owners go into one condition, and the fetched entities are handed out by their keys.  A relation
through a pivot embeds the pivots with the far entities on them.
-/

namespace RecordMapper

namespace Schema

def hydrate (s : Schema) (row : Row) : Attempt Entity := do
  return Entity.hydrated s.model (← s.castRow row)

def hydrateAll (s : Schema) (rows : List Row) : Attempt (List Entity) :=
  rows.mapM s.hydrate

def select (s : Schema) : Select :=
  Select.empty.addSource (.named s.tableName)

end Schema

namespace Database

variable {σ : Type}

def load (db : Database) (schema : Schema) (select : Select) (finish : Edit (List Entity) Unit) :
    Edit σ (List Entity) := do
  let rows ← db.execute (select.render db.dialect)
  let entities ← schema.hydrateAll rows
  Edit.applyTo entities finish

/-- A key of a relation must be a field. -/
def checkKey (db : Database) (model key relation : String) : Attempt Unit := do
  let schema ← db.registry.schema model
  if !schema.hasField key then throw (.keyMissing key model relation)

end Database

/-- Fetched entities that are handed out by their keys, and how many owners wait for each key. -/
structure Handout where
  waiting : KeyMap Nat
  groups : KeyMap (List Entity)

namespace Handout

def next (handout : Handout) : Option Key → List Entity × Handout
  | none => ([], handout)
  | some key =>
      let waiting := handout.waiting.countOf key
      (handout.groups.groupOf key,
        if 1 < waiting then { handout with waiting := handout.waiting.insert key (waiting - 1) }
        else { handout with groups := handout.groups.erase key })

end Handout

namespace Tie

/-- The columns that are fetched: all, or those of the relation and always the key. -/
def fetchedFields (tie : Tie) : List String :=
  if tie.fields.isEmpty then []
  else if tie.fields.contains tie.targetKey then tie.fields
  else tie.fields ++ [tie.targetKey]

def fetchSelect (tie : Tie) (target : Schema) (keys : List Value) : Select :=
  (target.select.addFilter ((Relation.tie tie).batchCondition keys)).addColumns
    (tie.fetchedFields.map Column.ofPath)

def fetch (db : Database) (tie : Tie) (finish : Edit (List Entity) Unit) (owners : List Entity) :
    Edit (List Entity) (List Entity) := do
  db.checkKey tie.source tie.sourceKey tie.name
  db.checkKey tie.target tie.targetKey tie.name
  let keys := distinctValues owners tie.sourceKey
  if keys.isEmpty then return []
  let target ← db.registry.schema tie.target
  db.load target (tie.fetchSelect target keys) finish

/-- Gives each owner the first of the fetched entities with its key, found by its position. -/
def attachOne (tie : Tie) (fetched owners : List Entity) : List Entity :=
  let positions := KeyMap.group (keyedPositions fetched tie.targetKey)
  owners.map fun owner =>
    let first? := (owner.fieldKey? tie.sourceKey).bind fun key => (positions.groupOf key).head?
    owner.setRelation tie.name (.one (first?.bind fun i => fetched[i]?))

/-- Gives each owner the group of its key.  The owners that share a key each get a copy of the
group, and the last of them takes the group itself. -/
def attachInTurn (tie : Tie) : Handout → List Entity → List Entity
  | _, [] => []
  | handout, owner :: rest =>
      let next := handout.next (owner.fieldKey? tie.sourceKey)
      owner.setRelation tie.name (.many ⟨tie.target, next.1⟩) :: attachInTurn tie next.2 rest

def attachMany (tie : Tie) (fetched owners : List Entity) : List Entity :=
  tie.attachInTurn
    { waiting := .count (owners.filterMap fun owner => owner.fieldKey? tie.sourceKey)
      groups := .group (keyedEntities fetched tie.targetKey) } owners

def attachAll (tie : Tie) (fetched owners : List Entity) : List Entity :=
  match tie.kind with
  | .belongsTo | .hasOne => tie.attachOne fetched owners
  | .hasMany => tie.attachMany fetched owners

/-- Gives all owners their related entities, each after an edit of all fetched entities. -/
def embed (db : Database) (tie : Tie) (finish : Edit (List Entity) Unit) :
    Edit (List Entity) Unit := do
  let fetched ← tie.fetch db finish (← Edit.subject)
  Edit.modify (tie.attachAll fetched)

end Tie

namespace Relation

/-- Gives all owners their related entities, each after an edit of all fetched entities.  A relation
through a pivot leaves its mark, and the data on the relation to the pivot. -/
def embed (db : Database) (finish : Edit (List Entity) Unit) : Relation → Edit (List Entity) Unit
  | .tie t => t.embed db finish
  | .through name _ route far _ => do
      route.embed db (embed db finish far)
      Edit.modify fun owners => owners.map fun owner => owner.setRelation name .through

end Relation

namespace Database

def embed (db : Database) (model : String) : EmbedTree → Edit (List Entity) Unit
  | .nil => pure ()
  | .cons name below rest => do
      let relation ← db.registry.relation model name
      relation.embed db (embed db relation.target below)
      embed db model rest

end Database

end RecordMapper
