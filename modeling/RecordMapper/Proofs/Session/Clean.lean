import RecordMapper.Proofs.Entity.Covering
import RecordMapper.Proofs.Registry
import RecordMapper.Proofs.Session.Claiming
import RecordMapper.Session.Saving

/-!
# Graphs that agree with the stored rows

`Entity.Clean` says what a save must find in a graph so that it has nothing to write.  The changes
that a save makes in memory keep it: `Becomes` says so for every tree at once, because two relations
can share their data.
-/

namespace RecordMapper

namespace Tie

/-- The rows that are related to a key. -/
def related (tie : Tie) (value : Value) : Condition :=
  (Condition.eq (.ofPath tie.targetKey) (.value value)).both tie.constraints

def ownedSelect (tie : Tie) (target : Schema) (columns : List String) (value : Value) : Select :=
  (target.select.addColumns (columns.map Column.ofPath)).addFilter (tie.related value)

/-- The rows may answer a selection of those that are related to an entity.  A key that is equal to
that of the entity can stand in its place. -/
def Answers (db : Database) (tie : Tie) (target : Schema) (columns : List String) (entity : Entity)
    (rows : List Row) : Prop :=
  ∃ own value log sql, entity.get? tie.sourceKey = some own ∧ own.Same value ∧
    value.isNull = false ∧ (tie.ownedSelect target columns value).render db.dialect = .ok sql ∧
    db.connection.answer log sql = .ok rows

end Tie

namespace Entity

def IsUnchanged (schema : Schema) (entity : Entity) : Prop :=
  ∃ row, entity.snapshot = some row ∧ ∀ field value, schema.hasField field = true →
    entity.get? field = some value → ∃ stored, row.get? field = some stored ∧
      value.equals stored = true

def IsSettled (db : Database) (entity : Entity) : Prop :=
  ∀ schema, db.registry.schema entity.model = .ok schema → entity.IsUnchanged schema

/-- The pivot can stay over a row: they share the far key, and no value of the pivot differs. -/
structure Fits (schema : Schema) (farKey : String) (row : Row) (pivot : Entity) : Prop where
  values : ∀ field value, schema.hasField field = true → pivot.get? field = some value →
    ∃ stored, row.get? field = some stored ∧ value.equals stored = true
  defined : ∀ field value, schema.hasField field = true → row.get? field = some value →
    value.equals value = true
  shares : pivot.sharesFar farKey row = true

/-- Either no pivot was read with an id, or each was read with that of its row. -/
def HaveIds (key : Option String) (rows : List Row) (pivots : List Entity) : Prop :=
  (∀ pivot ∈ pivots, pivot.storedId? key = none) ∨
    List.Forall₂ (fun row pivot => pivot.storedId? key = row.id? key) rows pivots

end Entity

/-! ## Relations without anything to write -/

namespace Tie

variable (db : Database)

def KeepsChildren (tie : Tie) (entity : Entity) : Prop :=
  ∀ target rows, db.registry.schema tie.target = .ok target →
    tie.Answers db target [target.keyName] entity rows → ∀ row ∈ rows, ∀ id,
      row.get? target.keyName = some id → id.key?.isSome = true →
        ∃ child ∈ entity.attached tie.name, child.fieldKey? target.keyName = id.key?

/-- Every stored pivot of an entity has its pivot in memory, in the order of the rows. -/
def KeepsPivots (tie : Tie) (farKey : String) (entity : Entity) : Prop :=
  ∀ pivot rows casts, db.registry.schema tie.target = .ok pivot →
    tie.Answers db pivot [] entity rows → rows.mapM pivot.castRow = .ok casts →
      List.Forall₂ (Entity.Fits pivot farKey) casts (entity.attached tie.name) ∧
        Entity.HaveIds pivot.declaredKey? casts (entity.attached tie.name)

/-- The keys of a tie agree, and no stored child is missing. -/
structure Clean (tie : Tie) (entity : Entity) : Prop where
  joined : ∀ related ∈ entity.attached tie.name,
    entity.Joined tie.sourceKey related tie.targetKey
  source : tie.kind = .hasMany → (entity.get? tie.sourceKey).isSome = true
  children : tie.kind = .hasMany → tie.KeepsChildren db entity

/-- The keys of a tie to pivots agree, and the pivots are those of the stored rows. -/
structure CleanRoute (tie : Tie) (farKey : String) (entity : Entity) : Prop where
  joined : ∀ pivot ∈ entity.attached tie.name, entity.Joined tie.sourceKey pivot tie.targetKey
  source : (entity.get? tie.sourceKey).isSome = true
  models : ∀ pivot ∈ entity.attached tie.name, pivot.model = tie.target
  steady : ∀ pivot rows rows', db.registry.schema tie.target = .ok pivot →
    tie.Answers db pivot [] entity rows → tie.Answers db pivot [] entity rows' → rows' = rows
  pivots : tie.KeepsPivots db farKey entity

end Tie

/-! ## Everywhere in a graph -/

/-- What can be asked of an entity, of a tie that it has, of the mark that a relation through pivots
leaves on it, and of the tie to these pivots. -/
structure Terms where
  own : Entity → Prop
  tie : Tie → Entity → Prop
  mark : String → Entity → Prop
  route : Tie → Relation → PivotMode → Entity → Prop

/-- The terms hold of a loaded relation of an entity and of the pivots on its way, and `below` holds
of the related entities. -/
def Relation.Everywhere (terms : Terms) (below : Entity → Prop) : Relation → Entity → Prop
  | .tie t, entity => entity.isLoaded t.name = true →
      terms.tie t entity ∧ ∀ related ∈ entity.attached t.name, below related
  | .through name _ route far mode, entity => entity.isLoaded name = true →
      terms.mark name entity ∧ ∀ collection,
        entity.relation? route.name = some (.many collection) →
          terms.route route far mode entity ∧ ∀ pivot ∈ entity.attached route.name,
            terms.own pivot ∧ Relation.Everywhere terms below far pivot

/-- The terms hold of an entity and of all that is attached to it under a tree. -/
def Entity.Everywhere (db : Database) (terms : Terms) : EmbedTree → Entity → Prop
  | .nil, entity => terms.own entity
  | .cons name below rest, entity =>
      (∀ relation, db.registry.relation entity.model name = .ok relation →
        relation.Everywhere terms (Entity.Everywhere db terms below) entity) ∧
      Entity.Everywhere db terms rest entity

namespace Terms

def clean (db : Database) : Terms where
  own := Entity.IsSettled db
  tie := Tie.Clean db
  mark name entity := entity.attached name = []
  route route far mode entity := mode = .diff ∧ route.CleanRoute db far.sourceKey entity

end Terms

/-- An entity and what is attached to it under a tree have nothing to write. -/
def Entity.Clean (db : Database) (tree : EmbedTree) (entity : Entity) : Prop :=
  entity.Everywhere db (.clean db) tree

/-! ## Changes that leave nothing to write -/

namespace Entity

variable {db : Database} {entity entity' entity'' : Entity}

theorem isSettled_of_clean {tree : EmbedTree} (h : entity.Clean db tree) : entity.IsSettled db := by
  induction tree with
  | nil => exact h
  | cons name below rest _ ih => exact ih h.2

/-- What has nothing to write under some tree has nothing to write after the change. -/
structure Becomes (db : Database) (entity entity' : Entity) : Prop where
  model : entity'.model = entity.model
  covers : entity.Covers entity'
  clean : ∀ tree, entity.Clean db tree → entity'.Clean db tree

/-- The change keeps the stored row and gives no field a value that had none. -/
structure Settles (db : Database) (entity entity' : Entity) : Prop
    extends Becomes db entity entity' where
  snapshot : entity'.snapshot = entity.snapshot
  missing : ∀ field, entity.get? field = none → entity'.get? field = none

theorem becomes_refl (db : Database) (entity : Entity) : entity.Becomes db entity :=
  ⟨rfl, covers_refl entity, fun _ h => h⟩

theorem becomes_trans (h : entity.Becomes db entity') (h' : entity'.Becomes db entity'') :
    entity.Becomes db entity'' :=
  ⟨h'.model.trans h.model, covers_trans h.covers h'.covers,
    fun tree hclean => h'.clean tree (h.clean tree hclean)⟩

theorem settles_refl (db : Database) (entity : Entity) : entity.Settles db entity :=
  ⟨becomes_refl db entity, rfl, fun _ h => h⟩

theorem settles_trans (h : entity.Settles db entity') (h' : entity'.Settles db entity'') :
    entity.Settles db entity'' :=
  ⟨becomes_trans h.toBecomes h'.toBecomes, h'.snapshot.trans h.snapshot,
    fun field hnone => h'.missing field (h.missing field hnone)⟩

theorem isSome_of_covers {field : String} (h : (entity.get? field).isSome = true)
    (hcovers : entity.Covers entity') : (entity'.get? field).isSome = true := by
  obtain ⟨value, hvalue⟩ := Option.isSome_iff_exists.mp h
  obtain ⟨value', hvalue', -⟩ := hcovers field value hvalue
  rw [hvalue']
  rfl

theorem answers_of_covers {tie : Tie} {target : Schema} {columns : List String} {rows : List Row}
    (hsource : (entity.get? tie.sourceKey).isSome = true) (hcovers : entity.Covers entity')
    (h : tie.Answers db target columns entity' rows) : tie.Answers db target columns entity rows := by
  obtain ⟨own', value, log, sql, hown', hsame, hrest⟩ := h
  obtain ⟨own, hown⟩ := Option.isSome_iff_exists.mp hsource
  obtain ⟨found, hfound, hownSame⟩ := hcovers tie.sourceKey own hown
  rw [hown'] at hfound
  cases hfound
  exact ⟨own, value, log, sql, hown, Value.same_trans hownSame hsame, hrest⟩

/-- What changes under a tree leave as it must be. -/
structure Changes (db : Database) (entity entity' : Entity) : Prop where
  model : entity'.model = entity.model
  covers : entity.Covers entity'
  settled : entity.IsSettled db → entity'.IsSettled db
  loaded : ∀ name, entity'.isLoaded name = entity.isLoaded name
  many : ∀ name collection', entity'.relation? name = some (.many collection') →
    ∃ collection, entity.relation? name = some (.many collection)
  attached : ∀ name, List.Forall₂ (Becomes db) (entity.attached name) (entity'.attached name)
  pivots : ∀ (tie : Tie) farKey, db.registry.relation entity.model tie.name = .ok (.tie tie) →
    tie.CleanRoute db farKey entity → tie.KeepsPivots db farKey entity'

theorem joined_of_changes (h : entity.Changes db entity') {name field other : String}
    (hjoined : ∀ related ∈ entity.attached name, entity.Joined field related other) :
    ∀ related ∈ entity'.attached name, entity'.Joined field related other := by
  intro related' hrelated'
  obtain ⟨related, hrelated, hbecomes⟩ := exists_of_mem_right (h.attached name) hrelated'
  exact joined_of_covers (hjoined related hrelated) h.covers hbecomes.covers

theorem keepsChildren_of_changes (h : entity.Changes db entity') {tie : Tie}
    (hsource : (entity.get? tie.sourceKey).isSome = true) (hkeeps : tie.KeepsChildren db entity) :
    tie.KeepsChildren db entity' := by
  intro target rows htarget hrows row hrow id hid hsome
  have hbefore : tie.Answers db target [target.keyName] entity rows :=
    answers_of_covers hsource h.covers hrows
  obtain ⟨child, hchild, hchildKey⟩ := hkeeps target rows htarget hbefore row hrow id hid hsome
  obtain ⟨child', hchild', hbecomes⟩ := exists_of_mem_left (h.attached tie.name) hchild
  obtain ⟨childKey, hchildKeySome⟩ := Option.isSome_iff_exists.mp hsome
  rw [hchildKeySome] at hchildKey ⊢
  exact ⟨child', hchild', fieldKey?_eq_of_covers hbecomes.covers hchildKey⟩

theorem cleanTie_of_changes (h : entity.Changes db entity') {tie : Tie}
    (hclean : tie.Clean db entity) : tie.Clean db entity' := by
  refine ⟨joined_of_changes h hclean.joined, fun hkind => ?_, fun hkind => ?_⟩
  · exact isSome_of_covers (hclean.source hkind) h.covers
  · exact keepsChildren_of_changes h (hclean.source hkind) (hclean.children hkind)

theorem cleanRoute_of_changes (h : entity.Changes db entity') {tie : Tie}
    {farKey : String} (htie : db.registry.relation entity.model tie.name = .ok (.tie tie))
    (hclean : tie.CleanRoute db farKey entity) :
    tie.CleanRoute db farKey entity' := by
  refine ⟨joined_of_changes h hclean.joined, isSome_of_covers hclean.source h.covers,
    fun pivot' hpivot' => ?_, fun pivot rows rows' hpivot hrows hrows' => ?_,
    h.pivots tie farKey htie hclean⟩
  · obtain ⟨pivot, hpivot, hbecomes⟩ := exists_of_mem_right (h.attached tie.name) hpivot'
    exact hbecomes.model.trans (hclean.models pivot hpivot)
  · exact hclean.steady pivot rows rows' hpivot (answers_of_covers hclean.source h.covers hrows)
      (answers_of_covers hclean.source h.covers hrows')

theorem everywhere_clean_of_changes (h : entity.Changes db entity') {name : String}
    {below : EmbedTree} {relation : Relation}
    (hrelation : db.registry.relation entity.model name = .ok relation)
    (hclean : relation.Everywhere (.clean db) (Entity.Clean db below) entity) :
    relation.Everywhere (.clean db) (Entity.Clean db below) entity' := by
  cases relation with
  | tie t =>
      intro hloaded
      rw [h.loaded] at hloaded
      obtain ⟨htie, hbelow⟩ := hclean hloaded
      refine ⟨cleanTie_of_changes h htie, fun related' hrelated' => ?_⟩
      obtain ⟨related, hrelated, hbecomes⟩ := exists_of_mem_right (h.attached t.name) hrelated'
      exact hbecomes.clean below (hbelow related hrelated)
  | through own correlate route far mode =>
      intro hloaded
      rw [h.loaded] at hloaded
      obtain ⟨hmark, hroute⟩ := hclean hloaded
      have hparts := Registry.parts_of_relation hrelation
      refine ⟨?_, fun collection' hcollection' => ?_⟩
      · have hmarks := h.attached own
        rw [hmark, List.forall₂_nil_left_iff] at hmarks
        exact hmarks
      · obtain ⟨collection, hcollection⟩ := h.many route.name collection' hcollection'
        obtain ⟨⟨hmode, hclean⟩, hpivots⟩ := hroute collection hcollection
        refine ⟨⟨hmode, cleanRoute_of_changes h hparts.1 hclean⟩, fun pivot' hpivot' => ?_⟩
        obtain ⟨pivot, hpivot, hbecomes⟩ := exists_of_mem_right (h.attached route.name) hpivot'
        -- the far relation of a pivot is a tree of its own
        have hmodel : pivot.model = route.target := hclean.models pivot hpivot
        have htree : pivot.Clean db (.cons far.name below .nil) := by
          refine ⟨fun found hfound => ?_, (hpivots pivot hpivot).1⟩
          rw [hmodel, hparts.2] at hfound
          cases hfound
          exact (hpivots pivot hpivot).2
        obtain ⟨hfar, hsettled⟩ := hbecomes.clean _ htree
        refine ⟨hsettled, hfar far ?_⟩
        rw [hbecomes.model, hmodel]
        exact hparts.2

theorem becomes_of_changes (h : entity.Changes db entity') :
    entity.Becomes db entity' := by
  refine ⟨h.model, h.covers, fun tree hclean => ?_⟩
  induction tree with
  | nil => exact h.settled hclean
  | cons name below rest _ ih =>
      refine ⟨fun relation hrelation => ?_, ih hclean.2⟩
      rw [h.model] at hrelation
      exact everywhere_clean_of_changes h hrelation (hclean.1 relation hrelation)

end Entity

end RecordMapper
