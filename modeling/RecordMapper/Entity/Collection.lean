import RecordMapper.Entity
import RecordMapper.Value.KeyMap

/-!
# Collections

A collection is changed by position.  Its entities are grouped by the keys of a field, and an entity
without a key in that field belongs to no group.
-/

namespace RecordMapper

/-- The values of a field that have keys, with their keys. -/
def keyedValues (entities : List Entity) (field : String) : List (Key × Value) :=
  entities.filterMap fun entity => do
    let value ← entity.get? field
    let key ← value.key?
    return (key, value)

/-- One value of a field for each key, in the order in which the keys are first met. -/
def distinctValues (entities : List Entity) (field : String) : List Value :=
  ((keyedValues entities field).eraseDupsBy fun a b => a.1 == b.1).map Prod.snd

def entitiesWithKey (entities : List Entity) (field : String) (key : Key) : List Entity :=
  entities.filter fun entity => entity.fieldKey? field == some key

def keyedEntities (entities : List Entity) (field : String) : List (Key × Entity) :=
  entities.filterMap fun entity => (entity.fieldKey? field).map fun key => (key, entity)

def keyedPositions (entities : List Entity) (field : String) : List (Key × Nat) :=
  entities.zipIdx.filterMap fun (entity, i) => (entity.fieldKey? field).map fun key => (key, i)

namespace Collection

def empty (model : String) : Collection :=
  ⟨model, []⟩

def size (c : Collection) : Nat :=
  c.entities.length

def isEmpty (c : Collection) : Bool :=
  c.entities.isEmpty

def get? (c : Collection) (i : Nat) : Option Entity :=
  c.entities[i]?

def first? (c : Collection) : Option Entity :=
  c.entities.head?

def push (c : Collection) (entity : Entity) : Collection :=
  { c with entities := c.entities ++ [entity] }

/-- Puts an entity before the one at a position, or at the end; there is no place past the end. -/
def insertAt (c : Collection) (i : Nat) (entity : Entity) : Option Collection :=
  if i ≤ c.size then some { c with entities := c.entities.insertIdx i entity } else none

def remove (c : Collection) (i : Nat) : Collection :=
  { c with entities := c.entities.eraseIdx i }

def replace (c : Collection) (i : Nat) (entity : Entity) : Collection :=
  { c with entities := c.entities.set i entity }

def clear (c : Collection) : Collection :=
  { c with entities := [] }

def values (c : Collection) (field : String) : List Value :=
  distinctValues c.entities field

def positionsOf (c : Collection) (field : String) (key : Key) : List Nat :=
  (c.entities.zipIdx.filter fun (entity, _) => entity.fieldKey? field == some key).map Prod.snd

/-- The keys of a field in their order, each with the positions of its entities. -/
def indexBy (c : Collection) (field : String) : List (Key × List Nat) :=
  let keys := (c.entities.filterMap fun entity => entity.fieldKey? field).eraseDups
  (keys.mergeSort fun a b => (a.compare b).isLE).map fun key => (key, c.positionsOf field key)

end Collection

end RecordMapper
