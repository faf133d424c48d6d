import RecordMapper.Entity.Collection

/-!
# Paths through related entities

Related entities form a graph.  A path leads from an entity or a collection to another one inside
it, by the names of relations and the positions in collections.
-/

namespace RecordMapper

inductive Part
  | entity (entity : Entity)
  | collection (collection : Collection)

inductive Segment
  /-- From a collection to one of its entities. -/
  | position (i : Nat)
  /-- From an entity to what is attached under a name. -/
  | relation (name : String)

namespace Part

def child? : Part → Segment → Attempt (Option Part)
  | .collection c, .position i => .ok ((c.get? i).map .entity)
  | .entity e, .relation name =>
      match e.relation? name with
      | some (.one related) => .ok (related.map .entity)
      | _ => do return some (.collection (← e.many name))
  | _, _ => .ok none

def setChild : Part → Segment → Part → Part
  | .collection c, .position i, .entity e => .collection (c.replace i e)
  | .entity e, .relation name, .entity related =>
      .entity (e.setRelation name (.one (some related)))
  | .entity e, .relation name, .collection c => .entity (e.setRelation name (.many c))
  | part, _, _ => part

def find? : Part → List Segment → Attempt (Option Part)
  | part, [] => .ok (some part)
  | part, segment :: path => do
      match ← part.child? segment with
      | some child => child.find? path
      | none => return none

def put (new : Part) : Part → List Segment → Part
  | _, [] => new
  | part, segment :: path =>
      match part.child? segment with
      | .ok (some child) => part.setChild segment (put new child path)
      | _ => part

end Part

end RecordMapper
