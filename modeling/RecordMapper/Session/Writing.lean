import RecordMapper.Session.Database
import RecordMapper.Statement.Delete
import RecordMapper.Statement.Insert
import RecordMapper.Statement.Update

/-!
# Writing entities

A new entity is inserted; a stored one is updated in the fields that differ from its row, and not at
all when none does.  Only fields of the schema are written.
-/

namespace RecordMapper

namespace Entity

/-- The key of the stored row: as it was stored, or else as it is in memory. -/
def storedKey (entity : Entity) (key model : String) : Attempt Value :=
  match entity.stored? key <|> entity.get? key with
  | some value => if value.isNull then .error (.storedKeyMissing key model) else .ok value
  | none => .error (.storedKeyMissing key model)

end Entity

namespace Schema

def hasKey (s : Schema) (id : Value) : Condition :=
  .eq (.ofPath s.keyName) (.value id)

/-- The values that an insert writes.  A key that is null is left to the database. -/
def insertedValues (s : Schema) (entity : Entity) : List (String × Value) :=
  entity.fields.pairs.filter fun (name, value) =>
    s.hasField name && !(name == s.keyName && value.isNull)

def changedValues (s : Schema) (entity : Entity) : List (String × Value) :=
  entity.fields.pairs.filter fun (name, _) => s.hasField name && entity.isModified name

def insertOf (s : Schema) (entity : Entity) : Insert :=
  (Insert.empty.into s.tableName).addRow (s.insertedValues entity)

def updateOf (s : Schema) (values : List (String × Value)) (id : Value) : Update :=
  ((Update.empty.setTable s.tableName).assignValues values).addFilter (s.hasKey id)

def deleteOf (s : Schema) (condition : Condition) : Delete :=
  (Delete.empty.fromTable s.tableName).addFilter condition

def lacksKey (s : Schema) (entity : Entity) : Bool :=
  s.hasField s.keyName && ((entity.get? s.keyName).all Value.isNull)

def withGivenKey (s : Schema) (given : Option Value) (entity : Entity) : Entity :=
  match given with
  | some id => if s.lacksKey entity then entity.set s.keyName id else entity
  | none => entity

end Schema

namespace Database

def update (db : Database) (schema : Schema) (entity : Entity) : Edit Entity Unit :=
  let changes := schema.changedValues entity
  if changes.isEmpty then pure ()
  else do
    let id ← entity.storedKey schema.keyName schema.model
    let _ ← db.execute ((schema.updateOf changes id).render db.dialect)
    Edit.modify Entity.markStored

def insert (db : Database) (schema : Schema) (entity : Entity) : Edit Entity Unit := do
  let _ ← db.execute ((schema.insertOf entity).render db.dialect)
  let given ← db.lastInsertId?
  Edit.modify fun entity => (schema.withGivenKey given entity).markStored

def persist (db : Database) : Edit Entity Unit := do
  let entity ← Edit.subject
  let schema ← db.registry.schema entity.model
  if entity.isStored then db.update schema entity else db.insert schema entity

/-- Deletes the row of an entity, which becomes new again. -/
def delete (db : Database) : Edit Entity Unit := do
  let entity ← Edit.subject
  let schema ← db.registry.schema entity.model
  let id ← entity.storedKey schema.keyName schema.model
  let _ ← db.execute ((schema.deleteOf (schema.hasKey id)).render db.dialect)
  Edit.modify fun entity => entity.resetNew none

end Database

end RecordMapper
