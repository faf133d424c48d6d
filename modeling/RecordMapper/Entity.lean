import RecordMapper.Error
import RecordMapper.Row
import RecordMapper.Value.Key

/-!
# Entities

An entity is a record of a model in memory.  It is new until a row of a table stands behind it; from
then on it keeps that row as a snapshot, and its changes are the differences from the snapshot.
Related entities are attached to it by the names of their relations.
-/

namespace RecordMapper

mutual

structure Entity where
  model : String
  fields : Row
  /-- The row as it was last read or written; a new entity has none. -/
  snapshot : Option Row
  relations : List (String × Related)

/-- What is attached to an entity under the name of a relation. -/
inductive Related
  /-- At most one entity. -/
  | one (entity : Option Entity)
  | many (collection : Collection)
  /-- The mark of a relation that leads through a pivot; its data are on the relation to the
  pivot. -/
  | through

structure Collection where
  model : String
  entities : List Entity

end

namespace Entity

def new (model : String) : Entity :=
  ⟨model, .empty, none, []⟩

instance : Inhabited Entity := ⟨new ""⟩

/-- An entity that agrees with a stored row. -/
def hydrated (model : String) (row : Row) : Entity :=
  ⟨model, row, some row, []⟩

/-! ## Fields -/

def get? (entity : Entity) (field : String) : Option Value :=
  entity.fields.get? field

def set (entity : Entity) (field : String) (value : Value) : Entity :=
  { entity with fields := entity.fields.insert field value }

def unset (entity : Entity) (field : String) : Entity :=
  { entity with fields := entity.fields.erase field }

def fieldKey? (entity : Entity) (field : String) : Option Key :=
  (entity.get? field).bind Value.key?

/-! ## The stored row -/

def stored? (entity : Entity) (field : String) : Option Value :=
  entity.snapshot.bind fun row => row.get? field

def isStored (entity : Entity) : Bool :=
  entity.snapshot.isSome

/-- The fields whose values differ from the stored row; for a new entity, all of them. -/
def modified (entity : Entity) : List String :=
  match entity.snapshot with
  | none => entity.fields.names
  | some row =>
      (entity.fields.pairs.filter fun (name, value) =>
        !Value.equalsOption (row.get? name) (some value)).map Prod.fst

/-- Whether the value of a field, present or absent, differs from the stored row; in a new entity,
whether there is one. -/
def isModified (entity : Entity) (field : String) : Bool :=
  match entity.snapshot with
  | none => entity.fields.contains field
  | some row => !Value.equalsOption (entity.get? field) (row.get? field)

/-- The entity after its values were written. -/
def markStored (entity : Entity) : Entity :=
  { entity with snapshot := some entity.fields }

/-- The entity without a stored row, and without a value for a key. -/
def resetNew (entity : Entity) (key : Option String) : Entity :=
  { entity with
    snapshot := none
    fields := match key with
      | some key => entity.fields.erase key
      | none => entity.fields }

/-- The entity with another stored row behind it.  The values in memory stay, but the key is that of
the row. -/
def adopt (entity : Entity) (row : Row) (key : Option String) : Entity :=
  { entity with
    snapshot := some row
    fields := row.insertAll (entity.fields.pairs.filter fun pair => some pair.1 ≠ key) }

/-! ## Relations -/

def relation? (entity : Entity) (name : String) : Option Related :=
  entity.relations.lookup name

def isLoaded (entity : Entity) (name : String) : Bool :=
  (entity.relation? name).isSome

/-- The names of the attached relations in alphabetical order. -/
def loaded (entity : Entity) : List String :=
  (entity.relations.map Prod.fst).mergeSort

def setRelation (entity : Entity) (name : String) (related : Related) : Entity :=
  { entity with relations := insertPair name related entity.relations }

def unsetRelation (entity : Entity) (name : String) : Entity :=
  { entity with relations := erasePair name entity.relations }

def relation (entity : Entity) (name : String) : Attempt Related :=
  match entity.relation? name with
  | some related => .ok related
  | none => .error (.relationNotLoaded entity.model name)

def one (entity : Entity) (name : String) : Attempt (Option Entity) := do
  match ← entity.relation name with
  | .one related => return related
  | _ => throw (.relationShape entity.model name "single entity")

def many (entity : Entity) (name : String) : Attempt Collection := do
  match ← entity.relation name with
  | .many collection => return collection
  | _ => throw (.relationShape entity.model name "collection")

/-! ## Keys -/

/-- The value of a key that a relation needs; null does not count. -/
def requireKey (entity : Entity) (key model relation : String) : Attempt Value :=
  match entity.get? key with
  | some value => if value.isNull then .error (.keyMissing key model relation) else .ok value
  | none => .error (.keyMissing key model relation)

/-! ## What changes leave alone -/

@[simp] theorem get?_set (entity : Entity) (field other : String) (value : Value) :
    (entity.set field value).get? other =
      if other = field then some value else entity.get? other :=
  entity.fields.get?_insert field other value

@[simp] theorem get?_unset (entity : Entity) (field other : String) :
    (entity.unset field).get? other = if other = field then none else entity.get? other :=
  entity.fields.get?_erase field other

@[simp] theorem relation?_setRelation (entity : Entity) (name other : String)
    (related : Related) :
    (entity.setRelation name related).relation? other =
      if other = name then some related else entity.relation? other :=
  lookup_insertPair name other related entity.relations

@[simp] theorem relation?_unsetRelation (entity : Entity) (name other : String) :
    (entity.unsetRelation name).relation? other =
      if other = name then none else entity.relation? other :=
  lookup_erasePair name other entity.relations

end Entity

end RecordMapper
