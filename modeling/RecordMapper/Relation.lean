import RecordMapper.Entity
import RecordMapper.Schema

/-!
# Relations

A relation with all its names resolved.  Two models are tied when the source key of the one must
equal the target key of the other.  A route leads over a tie to a pivot and from there over another
relation, so that a relation is a list of routes with a tie at its end.
-/

namespace RecordMapper

structure Tie where
  kind : TieKind
  source : String
  target : String
  name : String
  /-- What the source is called on the side of the target. -/
  correlate : String
  sourceKey : String
  targetKey : String
  /-- The fields that are fetched; all of them when there are none. -/
  fields : List String
  /-- What fetched rows must meet besides the keys. -/
  constraints : Condition

inductive Relation
  | tie (tie : Tie)
  /-- A way over the pivot at the end of `route` and over a relation of the pivot. -/
  | through (name correlate : String) (route : Tie) (far : Relation) (mode : PivotMode)

namespace Relation

def name : Relation → String
  | tie t => t.name
  | through name _ _ _ _ => name

def source : Relation → String
  | tie t => t.source
  | through _ _ route _ _ => route.source

def target : Relation → String
  | tie t => t.target
  | through _ _ _ far _ => far.target

def correlate : Relation → String
  | tie t => t.correlate
  | through _ correlate _ _ _ => correlate

/-- The key on the side of the source.  A route has the keys of its last tie. -/
def sourceKey : Relation → String
  | tie t => t.sourceKey
  | through _ _ _ far _ => far.sourceKey

def targetKey : Relation → String
  | tie t => t.targetKey
  | through _ _ _ far _ => far.targetKey

def fields : Relation → List String
  | tie t => t.fields
  | through _ _ _ _ _ => []

def constraints : Relation → Condition
  | tie t => t.constraints
  | through _ _ _ _ _ => .always

def isMany : Relation → Bool
  | tie t => t.kind == .hasMany
  | through _ _ _ _ _ => true

/-- Whether the entity holds the key of the relation itself. -/
def isBelongsTo : Relation → Bool
  | tie t => t.kind == .belongsTo
  | through _ _ _ _ _ => false

/-! ## Related rows -/

def batchCondition (relation : Relation) (values : List Value) : Condition :=
  (Condition.inList (.ofPath relation.targetKey) values).both relation.constraints

/-- The rows that are related to an entity. -/
def matchCondition (relation : Relation) (entity : Entity) : Attempt Condition := do
  let value ← entity.requireKey relation.sourceKey relation.source relation.name
  return (Condition.eq (.ofPath relation.targetKey) (.value value)).both relation.constraints

end Relation

end RecordMapper
