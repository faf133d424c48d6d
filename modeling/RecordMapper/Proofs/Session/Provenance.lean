import RecordMapper.Proofs.EmbedTree
import RecordMapper.Proofs.Registry
import RecordMapper.Proofs.Session.Sending

/-!
# What a save comes to

A save takes its steps one after the other: first what an entity belongs to, then the entity itself,
then all other relations.  `Saves` gives the entities that are saved in this way, each with the tree
below it, `Reaches` the relations that are saved, each with its owner as it is by then, and `Persists`
the entities that are written.  The rows that an owner is told of are those that answer the selection
for it.
-/

namespace RecordMapper

namespace Relation

/-- The entities that a relation of an owner hands over to be saved.  Children have been given the key
of the owner. -/
inductive Hands : Relation → Entity → Entity → Prop
  | parent {tie : Tie} {owner parent : Entity} (kind : tie.kind = .belongsTo)
      (attached : parent ∈ owner.attached tie.name) : Hands (.tie tie) owner parent
  | child {tie : Tie} {owner child : Entity} {key : Value} (kind : tie.kind ≠ .belongsTo)
      (ownerKey : owner.requireKey tie.sourceKey tie.source tie.name = .ok key)
      (attached : child ∈ owner.attached tie.name) :
      Hands (.tie tie) owner (child.set tie.targetKey key)
  | far {mark correlate : String} {route : Tie} {far : Relation} {mode : PivotMode}
      {owner pivot entity : Entity} (pivots : pivot ∈ owner.attached route.name)
      (attached : entity ∈ pivot.attached far.name) :
      Hands (.through mark correlate route far mode) owner entity

end Relation

namespace Database

/-! ## Steps -/

/-- The steps of a save with branches, in their order. -/
def steps (db : Database) (branches : List Branch) : List (Edit Entity Unit) :=
  (branches.filter fun b => b.comesFirst).map (Branch.save db) ++
    db.persist :: (branches.filter fun b => !b.comesFirst).map (Branch.save db)

/-- Some run of the save of an entity takes a step when the entity has become another one. -/
def Takes (db : Database) (tree : EmbedTree) (entity : Entity) (step : Edit Entity Unit)
    (current : Entity) : Prop :=
  ∃ branches before after log sent, db.branches tree entity.model = .ok branches ∧
    db.steps branches = before ++ step :: after ∧
    Edit.inOrder before entity log = ⟨.ok (), current, sent⟩

structure TakesRelation (db : Database) (tree : EmbedTree) (entity : Entity) (relation : Relation)
    (below : EmbedTree) (owner : Entity) : Prop where
  known : ∃ name, (name, below) ∈ tree.entries ∧
    db.registry.relation entity.model name = .ok relation
  takes : db.Takes tree entity (relation.save db (db.save below)) owner
  loaded : owner.isLoaded relation.name = true

/-- The entities that are saved with an entity and its tree, each with its own tree. -/
inductive Saves (db : Database) (tree : EmbedTree) (entity : Entity) : EmbedTree → Entity → Prop
  | self : Saves db tree entity tree entity
  | onward {own below : EmbedTree} {start owner related : Entity} {relation : Relation}
      (saved : Saves db tree entity own start)
      (taken : db.TakesRelation own start relation below owner)
      (handed : relation.Hands owner related) : Saves db tree entity below related

/-- A relation of one of the entities that are saved, with its owner as it is by then. -/
def Reaches (db : Database) (tree : EmbedTree) (entity : Entity) (relation : Relation)
    (below : EmbedTree) (owner : Entity) : Prop :=
  ∃ own start, db.Saves tree entity own start ∧ db.TakesRelation own start relation below owner

/-- The stored children of an owner are looked up. -/
structure OwnsChildren (db : Database) (tree : EmbedTree) (entity : Entity) (tie : Tie)
    (owner : Entity) (target : Schema) : Prop where
  reached : ∃ below, db.Reaches tree entity (.tie tie) below owner
  kind : tie.kind = .hasMany
  schema : db.registry.schema tie.target = .ok target

/-- The pivots of an owner are brought in line with its far entities. -/
structure OwnsPivots (db : Database) (tree : EmbedTree) (entity : Entity) (route : Tie)
    (far : Relation) (mode : PivotMode) (below : EmbedTree) (owner : Entity) (pivot : Schema) :
    Prop where
  reached : ∃ mark correlate, db.Reaches tree entity (.through mark correlate route far mode) below
    owner
  schema : db.registry.schema route.target = .ok pivot

/-! ## Rows -/

/-- The statement selects the stored rows of an owner. -/
def SelectsOwned (db : Database) (schema : Schema) (tie : Tie) (owner : Entity)
    (columns : List Column) (sql : String) : Prop :=
  ∃ owned, (Relation.tie tie).matchCondition owner = .ok owned ∧
    ((schema.select.addColumns columns).addFilter owned).render db.dialect = .ok sql

/-- The values are ids of the children that were selected for an owner. -/
def FindsIds (db : Database) (target : Schema) (tie : Tie) (owner : Entity) (ids : List Value) : Prop :=
  ∃ select, db.SelectsOwned target tie owner [.ofPath target.keyName] select ∧
    ∀ id ∈ ids, ∃ row, db.AnswersTo select row ∧ row.get? target.keyName = some id

/-- The rows are pivots that were selected for an owner, read in the form of the schema. -/
def FindsRows (db : Database) (pivot : Schema) (route : Tie) (owner : Entity) (rows : List Row) :
    Prop :=
  ∃ select, db.SelectsOwned pivot route owner [] select ∧
    ∀ row ∈ rows, ∃ answered, db.AnswersTo select answered ∧ pivot.castRow answered = .ok row

/-! ## Written entities -/

/-- A pivot of an owner, as some run leaves it after its far entity is saved. -/
def Prepares (db : Database) (route : Tie) (far : Relation) (below : EmbedTree)
    (owner prepared : Entity) : Prop :=
  ∃ key pivot log sent, owner.requireKey route.sourceKey route.source route.name = .ok key ∧
    pivot ∈ owner.attached route.name ∧
    Edit.preparePivot route far key (db.save below) pivot log = ⟨.ok (), prepared, sent⟩

/-- A pivot takes over a row that was found, or else it becomes a new row. -/
inductive Settles (db : Database) (route : Tie) (pivot : Schema) (owner prepared : Entity) :
    PivotMode → Entity → Prop
  | adopted {row : Row} (found : db.FindsRows pivot route owner [row]) :
      Settles db route pivot owner prepared .diff (prepared.adopt row pivot.declaredKey?)
  | fresh (new : prepared.isStored = false) : Settles db route pivot owner prepared .diff prepared
  | renewed (mode : PivotMode) :
      Settles db route pivot owner prepared mode (prepared.resetNew pivot.declaredKey?)

/-- The entities that are written with an entity and its tree, each as it is by then. -/
inductive Persists (db : Database) (tree : EmbedTree) (entity : Entity) : Entity → Prop
  | own {sub : EmbedTree} {start written : Entity} (saved : db.Saves tree entity sub start)
      (taken : db.Takes sub start db.persist written) : Persists db tree entity written
  | pivot {route : Tie} {far : Relation} {mode : PivotMode} {below : EmbedTree}
      {owner prepared written : Entity} {pivot : Schema}
      (owns : db.OwnsPivots tree entity route far mode below owner pivot)
      (prepares : db.Prepares route far below owner prepared)
      (settles : db.Settles route pivot owner prepared mode written) : Persists db tree entity written

variable {db : Database} {tree below : EmbedTree} {entity owner : Entity}

theorem has_of_reaches {relation : Relation} (h : db.Reaches tree entity relation below owner) :
    db.registry.Has relation := by
  obtain ⟨own, start, -, ⟨name, -, hrelation⟩, -, -⟩ := h
  exact ⟨start.model, name, hrelation⟩

theorem OwnsChildren.has {tie : Tie} {target : Schema}
    (h : db.OwnsChildren tree entity tie owner target) : db.registry.Has (.tie tie) := by
  obtain ⟨below, hreached⟩ := h.reached
  exact has_of_reaches hreached

theorem OwnsPivots.has {route : Tie} {far : Relation} {mode : PivotMode} {pivot : Schema}
    (h : db.OwnsPivots tree entity route far mode below owner pivot) :
    db.registry.Has (.tie route) := by
  obtain ⟨mark, correlate, hreached⟩ := h.reached
  exact (Registry.has_parts (has_of_reaches hreached)).1

/-! ## Branches -/

theorem branches_cons {name model : String} {below rest : EmbedTree} {branches : List Branch} :
    db.branches (.cons name below rest) model = .ok branches ↔
      ∃ relation others, db.registry.relation model name = .ok relation ∧
        db.branches rest model = .ok others ∧ branches = ⟨relation, db.save below⟩ :: others := by
  rw [Database.branches, attempt_bind_eq_ok]
  constructor
  · rintro ⟨relation, hrelation, h⟩
    obtain ⟨others, hothers, h⟩ := attempt_bind_eq_ok.mp h
    cases h
    exact ⟨relation, others, hrelation, hothers, rfl⟩
  · rintro ⟨relation, others, hrelation, hothers, rfl⟩
    exact ⟨relation, hrelation, attempt_bind_eq_ok.mpr ⟨others, hothers, rfl⟩⟩

theorem branches_forall₂ {model : String} {branches : List Branch}
    (h : db.branches tree model = .ok branches) :
    List.Forall₂ (fun entry branch => db.registry.relation model entry.1 = .ok branch.relation ∧
      branch.saveBelow = db.save entry.2) tree.entries branches := by
  induction tree generalizing branches with
  | nil =>
      cases h
      exact .nil
  | cons name below rest _ ih =>
      obtain ⟨relation, others, hrelation, hothers, rfl⟩ := branches_cons.mp h
      exact .cons ⟨hrelation, rfl⟩ (ih hothers)

theorem eq_persist_or_branch {branches : List Branch} {before after : List (Edit Entity Unit)}
    {step : Edit Entity Unit} (h : db.steps branches = before ++ step :: after) :
    step = db.persist ∨ ∃ branch ∈ branches, step = branch.save db := by
  have hstep : step ∈ db.steps branches := by
    rw [h]
    exact List.mem_append_right before List.mem_cons_self
  rcases List.mem_append.mp hstep with hfirst | hrest
  · obtain ⟨branch, hbranch, rfl⟩ := List.mem_map.mp hfirst
    exact .inr ⟨branch, List.mem_of_mem_filter hbranch, rfl⟩
  · rcases List.mem_cons.mp hrest with hpersist | hlater
    · exact .inl hpersist
    · obtain ⟨branch, hbranch, rfl⟩ := List.mem_map.mp hlater
      exact .inr ⟨branch, List.mem_of_mem_filter hbranch, rfl⟩

theorem save_apply {branches : List Branch} (h : db.branches tree entity.model = .ok branches)
    (log : Log) : db.save tree entity log = Edit.inOrder (db.steps branches) entity log := by
  rw [steps, Edit.inOrder_append]
  unfold save saveWith
  rw [Edit.subject_bind_apply, h, Edit.lift_ok_bind]
  rfl

end Database

end RecordMapper
