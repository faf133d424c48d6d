import RecordMapper.Session.Embedding
import RecordMapper.Session.Reconciling
import RecordMapper.Session.Writing

/-!
# Saving entities with their relations

An entity is saved together with the relations of a tree.  What it belongs to goes first, so that
its key is known; then the entity itself; then all other relations.  Related rows that are no longer
among the entities are deleted.  A relation whose data are not attached is left alone.
-/

namespace RecordMapper

namespace Edit

variable {α β τ : Type}

/-- Edits the entity of a relation to one, if there is any. -/
def onOne (name : String) (edit : Edit Entity α) : Edit Entity (Option α) := do
  match ← (← subject).one name with
  | some related =>
      let put (related : Entity) (owner : Entity) := owner.setRelation name (.one (some related))
      some <$> within related put edit
  | none => return none

def onMany (name : String) (edit : Edit (List Entity) α) : Edit Entity α := do
  let collection ← (← subject).many name
  let put (entities : List Entity) (owner : Entity) :=
    owner.setRelation name (.many ⟨collection.model, entities⟩)
  within collection.entities put edit

/-- Edits the items of a list, each with another item beside it, up to the first failure. -/
def forEachWith (edit : β → Edit τ Unit) : List β → Edit (List τ) Unit
  | b :: others, item :: rest, log =>
      match edit b item log with
      | ⟨.error error, item, log⟩ => ⟨.error error, item :: rest, log⟩
      | ⟨.ok (), item, log⟩ =>
          let outcome := forEachWith edit others rest log
          ⟨outcome.result, item :: outcome.subject, outcome.log⟩
  | _, items, log => ⟨.ok (), items, log⟩

end Edit

namespace Tie

/-- Saves the entity that the owner belongs to, and gives its key to the owner. -/
def saveBelongsTo (tie : Tie) (save : Edit Entity Unit) : Edit Entity Unit := do
  let saved ← Edit.onOne tie.name do
    save
    (← Edit.subject).requireKey tie.targetKey tie.target tie.name
  match saved with
  | some key => Edit.modify fun owner => owner.set tie.sourceKey key
  | none => pure ()

/-- Gives the key of the owner to its entity, and saves the entity. -/
def saveHasOne (tie : Tie) (save : Edit Entity Unit) : Edit Entity Unit := do
  let ownerKey ← (← Edit.subject).requireKey tie.sourceKey tie.source tie.name
  let _ ← Edit.onOne tie.name do
    Edit.modify fun child => child.set tie.targetKey ownerKey
    save

def saveChild (tie : Tie) (ownerKey : Value) (childKey : String) (save : Edit Entity Unit) :
    Edit Entity (Option Key) := do
  Edit.modify fun child => child.set tie.targetKey ownerKey
  save
  return (← Edit.subject).fieldKey? childKey

def deleteMissing (db : Database) (target : Schema) (ids : List Value) : Edit Entity Unit :=
  if ids.isEmpty then pure ()
  else do
    let missing := Condition.inList (.ofPath target.keyName) ids
    let _ ← db.execute ((target.deleteOf missing).render db.dialect)

/-- Saves all children of an owner, and deletes the stored ones that are no longer among them. -/
def saveHasMany (db : Database) (tie : Tie) (save : Edit Entity Unit) : Edit Entity Unit := do
  let owner ← Edit.subject
  let ownerKey ← owner.requireKey tie.sourceKey tie.source tie.name
  let target ← db.registry.schema tie.target
  db.checkKey tie.target target.keyName tie.name
  let related ← (Relation.tie tie).matchCondition owner
  let select := (target.select.addColumns [.ofPath target.keyName]).addFilter related
  let stored ← db.execute (select.render db.dialect)
  let present ← Edit.onMany tie.name
    (Edit.forEach (tie.saveChild ownerKey target.keyName save))
  deleteMissing db target (missingIds target.keyName stored present)

def save (db : Database) (tie : Tie) (saveBelow : Edit Entity Unit) : Edit Entity Unit :=
  match tie.kind with
  | .belongsTo => tie.saveBelongsTo saveBelow
  | .hasOne => tie.saveHasOne saveBelow
  | .hasMany => tie.saveHasMany db saveBelow

end Tie

/-! ## Saving through a pivot -/

namespace Schema

/-- The key of a pivot, if it is a field. -/
def declaredKey? (s : Schema) : Option String :=
  if s.hasField s.keyName then some s.keyName else none

end Schema

namespace Edit

/-- Saves the far entity of a pivot, and gives its key and that of the owner to the pivot. -/
def preparePivot (route : Tie) (far : Relation) (ownerKey : Value) (saveFar : Edit Entity Unit) :
    Edit Entity Unit := do
  if (← subject).isLoaded far.name then
    let saved ← onOne far.name do
      saveFar
      (← subject).requireKey far.targetKey far.target far.name
    match saved with
    | some key => modify fun pivot => pivot.set far.sourceKey key
    | none => pure ()
  modify fun pivot => pivot.set route.targetKey ownerKey

def insertPivot (db : Database) (key : Option String) : Edit Entity Unit := do
  modify fun pivot => pivot.resetNew key
  db.persist

/-- Writes a pivot over the row that it takes over, or else as a new row. -/
def settlePivot (db : Database) (key : Option String) (row : Option Row) : Edit Entity Unit := do
  modify fun pivot =>
    match row with
    | some row => pivot.adopt row key
    | none => if pivot.isStored then pivot.resetNew key else pivot
  db.persist

/-- Deletes all rows of the owner, and inserts its pivots. -/
def flushPivots (db : Database) (pivot : Schema) (owned : Condition) :
    Edit (List Entity) Unit := do
  let _ ← db.execute ((pivot.deleteOf owned).render db.dialect)
  let _ ← forEach (insertPivot db pivot.declaredKey?)

def deleteStale (db : Database) (pivot : Schema) (stale : List Row) : Edit (List Entity) Unit :=
  if stale.isEmpty then pure ()
  else do
    let condition := staleCondition pivot.declaredKey? stale
    let _ ← db.execute ((pivot.deleteOf condition).render db.dialect)

/-- Lets the pivots of an owner take over its rows, writes them, and deletes the stale rows. -/
def diffPivots (db : Database) (pivot : Schema) (farKey : String) (owned : Condition) :
    Edit (List Entity) Unit := do
  let rows ← db.execute ((pivot.select.addFilter owned).render db.dialect)
  let stored ← (rows.mapM pivot.castRow : Attempt (List Row))
  let paired := pairRows pivot.declaredKey? farKey (← subject) stored
  forEachWith (settlePivot db pivot.declaredKey?) paired.1
  deleteStale db pivot paired.2

end Edit

namespace Relation

/-- Saves the far entities of an owner, then brings the rows of the pivot in line with its pivots. -/
def saveThrough (db : Database) (route : Tie) (far : Relation) (mode : PivotMode)
    (saveFar : Edit Entity Unit) : Edit Entity Unit := do
  let owner ← Edit.subject
  if owner.isLoaded route.name then
    let ownerKey ← owner.requireKey route.sourceKey route.source route.name
    let pivot ← db.registry.schema route.target
    let owned ← (Relation.tie route).matchCondition owner
    Edit.onMany route.name do
      let _ ← Edit.forEach (Edit.preparePivot route far ownerKey saveFar)
      match mode with
      | .flush => Edit.flushPivots db pivot owned
      | .diff => Edit.diffPivots db pivot far.sourceKey owned

def save (db : Database) (relation : Relation) (saveBelow : Edit Entity Unit) :
    Edit Entity Unit := do
  if (← Edit.subject).isLoaded relation.name then
    match relation with
    | .tie t => t.save db saveBelow
    | .through _ _ route far mode => saveThrough db route far mode saveBelow

end Relation

/-! ## Cascades -/

/-- A relation to save with an entity, and the way to save the entities below it. -/
structure Branch where
  relation : Relation
  saveBelow : Edit Entity Unit

namespace Branch

def save (db : Database) (branch : Branch) : Edit Entity Unit :=
  branch.relation.save db branch.saveBelow

def comesFirst (branch : Branch) : Bool :=
  branch.relation.isBelongsTo

end Branch

namespace Database

/-- Saves an entity with branches that follow from its model. -/
def saveWith (db : Database) (branchesOf : String → Attempt (List Branch)) :
    Edit Entity Unit := do
  let branches ← branchesOf (← Edit.subject).model
  Edit.inOrder ((branches.filter fun b => b.comesFirst).map (Branch.save db))
  db.persist
  Edit.inOrder ((branches.filter fun b => !b.comesFirst).map (Branch.save db))

def branches (db : Database) : EmbedTree → String → Attempt (List Branch)
  | .nil, _ => .ok []
  | .cons name below rest, model => do
      let relation ← db.registry.relation model name
      let others ← branches db rest model
      return ⟨relation, db.saveWith (branches db below)⟩ :: others

def save (db : Database) (tree : EmbedTree) : Edit Entity Unit :=
  db.saveWith (db.branches tree)

def saveAll (db : Database) (tree : EmbedTree) : Edit (List Entity) Unit := do
  let _ ← Edit.forEach (db.save tree)

end Database

end RecordMapper
