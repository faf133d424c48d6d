import RecordMapper.Entity.Collection
import RecordMapper.Relation

/-!
# Views through a pivot

A relation that leads through a pivot keeps its data on the relation to the pivot.  A view lets the
far entities be read and changed as a list: each position is one pivot, and changing the list makes
and drops pivots.
-/

namespace RecordMapper

/-- The pivots of an entity, seen as a list of far entities. -/
structure ThroughView where
  /-- The relation of the entity to the pivot. -/
  route : String
  /-- The relation of the pivot to the far model. -/
  far : String
  pivotModel : String
  pivots : Collection

def Related.entity? : Related → Option Entity
  | .one entity => entity
  | _ => none

namespace Entity

def far? (pivot : Entity) (far : String) : Option Entity :=
  match pivot.relation? far with
  | some (.one related) => related
  | _ => none

def setFar (pivot : Entity) (far : String) (entity : Entity) : Entity :=
  pivot.setRelation far (.one (some entity))

/-- Opens a view.  A new entity gets an empty list of pivots; in a stored entity they must be
attached.  What was attached on the way stays, whether or not the view opens. -/
def openThrough (entity : Entity) : Relation → Entity × Attempt ThroughView
  | .tie tie => (entity, .error (.relationNotThrough tie.source tie.name))
  | .through name _ route far _ =>
      if !entity.isLoaded route.name && entity.isStored then
        (entity, .error (.relationNotLoaded entity.model name))
      else
        let ready :=
          if entity.isLoaded route.name then entity
          else entity.setRelation route.name (.many (.empty route.target))
        let marked := ready.setRelation name .through
        (marked, (marked.many route.name).map fun pivots =>
          { route := route.name, far := far.name, pivotModel := route.target, pivots })

def closeThrough (entity : Entity) (view : ThroughView) : Entity :=
  entity.setRelation view.route (.many view.pivots)

/-- The far entities of a relation in the order of their pivots.  A pivot without one is passed
over. -/
def throughEntities (entity : Entity) : Relation → Attempt (List Entity)
  | .tie tie => .error (.relationNotThrough tie.source tie.name)
  | .through name _ route far _ =>
      if !entity.isLoaded name && !entity.isLoaded route.name then
        .error (.relationNotLoaded entity.model name)
      else do
        let pivots ← entity.many route.name
        let found ← pivots.entities.mapM fun pivot => pivot.one far.name
        return found.filterMap id

end Entity

namespace ThroughView

def size (view : ThroughView) : Nat :=
  view.pivots.size

def isEmpty (view : ThroughView) : Bool :=
  view.pivots.isEmpty

def slots (view : ThroughView) : List (Option Entity) :=
  view.pivots.entities.map fun pivot => pivot.far? view.far

def get? (view : ThroughView) (i : Nat) : Option Entity :=
  (view.pivots.get? i).bind fun pivot => pivot.far? view.far

/-- The far entities, without the positions that have none. -/
def toList (view : ThroughView) : List Entity :=
  view.slots.filterMap id

def modify (view : ThroughView) (i : Nat) (change : Entity → Entity) : ThroughView :=
  match view.pivots.get? i with
  | some pivot =>
      match pivot.far? view.far with
      | some entity =>
          { view with pivots := view.pivots.replace i (pivot.setFar view.far (change entity)) }
      | none => view
  | none => view

/-- Appends a far entity behind a new pivot. -/
def push (view : ThroughView) (entity : Entity) : ThroughView :=
  { view with
    pivots := view.pivots.push ((Entity.new view.pivotModel).setFar view.far entity) }

/-- Puts another far entity at a position and keeps the pivot.  Past the end it is appended.  The far
entity that was at the position comes with the view. -/
def swapAt (view : ThroughView) (i : Nat) (entity : Entity) : Option Entity × ThroughView :=
  match view.pivots.get? i with
  | some pivot =>
      ((pivot.relation? view.far).bind Related.entity?,
        { view with pivots := view.pivots.replace i (pivot.setFar view.far entity) })
  | none => (none, view.push entity)

/-- Drops the pivot at a position.  Its far entity comes with the view. -/
def takeAt (view : ThroughView) (i : Nat) : Option Entity × ThroughView :=
  ((view.pivots.get? i).bind fun pivot => (pivot.relation? view.far).bind Related.entity?,
    { view with pivots := view.pivots.remove i })

def set (view : ThroughView) (i : Nat) (entity : Entity) : ThroughView :=
  (view.swapAt i entity).2

def unset (view : ThroughView) (i : Nat) : ThroughView :=
  (view.takeAt i).2

def clear (view : ThroughView) : ThroughView :=
  { view with pivots := view.pivots.clear }

/-- The far entities as a collection of its own, of the model of the first of them. -/
def toCollection (view : ThroughView) : Collection :=
  ⟨(view.toList.head?.map Entity.model).getD "", view.toList⟩

end ThroughView

end RecordMapper
