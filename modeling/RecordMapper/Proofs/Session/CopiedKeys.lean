import RecordMapper.Proofs.Session.Pivots
import RecordMapper.Proofs.Session.Stages

/-!
# Keys that are copied in a save

What an entity belongs to is written before the entity, and the far entities of its pivots before the
pivots, so that the keys the database gives to them can be copied.  `ParentRun` and `FarSideRun` say in
which order everything is sent and where the keys are afterwards.
-/

namespace RecordMapper

open Edit

/-! ## Pivots that carry keys -/

namespace Entity

/-- The entity has the relations of another, and its values but that of a key. -/
structure KeepsValues (key : Option String) (entity entity' : Entity) : Prop where
  relations : entity'.relations = entity.relations
  values : ∀ field value, key ≠ some field → value.isNull = false →
    entity.get? field = some value → entity'.get? field = some value

structure IsWritten (key : Option String) (entity entity' : Entity) : Prop
    extends KeepsValues key entity entity' where
  stored : entity'.isStored = true

theorem keepsValues_resetNew (entity : Entity) (key : Option String) :
    entity.KeepsValues key (entity.resetNew key) := by
  refine ⟨rfl, fun field value hkey _ hvalue => ?_⟩
  cases key with
  | none => exact hvalue
  | some column =>
      have hfield : field ≠ column := fun heq => hkey (by rw [heq])
      exact (get?_unset entity column field).trans ((if_neg hfield).trans hvalue)

theorem keepsValues_adopt (entity : Entity) (row : Row) (key : Option String) :
    entity.KeepsValues key (entity.adopt row key) := by
  refine ⟨rfl, fun field value hkey _ hvalue => ?_⟩
  rw [get?_adopt, if_neg (Ne.symm hkey), hvalue]
  rfl

/-- The pivot has the key of its owner, and that of the far entity that it holds. -/
structure CarriesKeys (route : Tie) (far : Relation) (ownerKey : Value) (pivot : Entity) : Prop where
  owner : pivot.get? route.targetKey = some ownerKey
  far : ∀ related ∈ pivot.attached far.name, ∃ key, related.get? far.targetKey = some key ∧
    key.isNull = false ∧ pivot.get? far.sourceKey = some key

variable {route : Tie} {far : Relation} {ownerKey : Value} {pivot pivot' : Entity}

theorem flatMap_attached_of_isWritten {key : Option String} {pivots pivots' : List Entity}
    (h : List.Forall₂ (IsWritten key) pivots pivots') (name : String) :
    (pivots.flatMap fun pivot => pivot.attached name) =
      pivots'.flatMap fun pivot => pivot.attached name := by
  induction h with
  | nil => rfl
  | cons hpivot _ ih =>
      rw [List.flatMap_cons, List.flatMap_cons, ih, attached_of_relations hpivot.relations]

theorem carriesKeys_of_keepsValues {key : Option String} (howner : key ≠ some route.targetKey)
    (hfar : key ≠ some far.sourceKey) (hnull : ownerKey.isNull = false)
    (h : pivot.KeepsValues key pivot') (hcarries : pivot.CarriesKeys route far ownerKey) :
    pivot'.CarriesKeys route far ownerKey := by
  refine ⟨h.values _ _ howner hnull hcarries.owner, fun related hrelated => ?_⟩
  rw [attached_of_relations h.relations] at hrelated
  obtain ⟨key, hkey, hkeyNull, hpivot⟩ := hcarries.far related hrelated
  exact ⟨key, hkey, hkeyNull, h.values _ _ hfar hkeyNull hpivot⟩

end Entity

namespace Edit

variable {db : Database} {route : Tie} {far : Relation} {ownerKey : Value}
  {saveFar : Edit Entity Unit} {pivot pivot' : Entity} {log log' : Log}

theorem carriesKeys_of_run (hkeys : route.targetKey ≠ far.sourceKey)
    (h : preparePivot route far ownerKey saveFar pivot log = ⟨.ok (), pivot', log'⟩) :
    pivot'.CarriesKeys route far ownerKey := by
  rcases run_preparePivot_cases h with ⟨hnone, rfl, rfl⟩ |
    ⟨related, related', key, -, -, hkey, hnull, rfl⟩
  · refine ⟨by simp, fun found hfound => ?_⟩
    change found ∈ pivot.attached far.name at hfound
    rw [hnone] at hfound
    cases hfound
  · refine ⟨by simp, fun found hfound => ⟨key, ?_, hnull, by simp [Ne.symm hkeys]⟩⟩
    change found ∈ (pivot.setRelation far.name (.one (some related'))).attached far.name at hfound
    rw [Entity.attached_setRelation_self] at hfound
    rw [List.mem_singleton.mp hfound]
    exact hkey

theorem run_forEach_preparePivot {pivots prepared : List Entity} {results : List Unit}
    (hkeys : route.targetKey ≠ far.sourceKey)
    (h : forEach (preparePivot route far ownerKey saveFar) pivots log =
      ⟨.ok results, prepared, log'⟩) :
    (∃ saved, forEach saveFar (pivots.flatMap fun pivot => pivot.attached far.name) log =
      ⟨.ok saved, prepared.flatMap fun pivot => pivot.attached far.name, log'⟩) ∧
    ∀ pivot ∈ prepared, pivot.CarriesKeys route far ownerKey := by
  induction pivots generalizing results prepared log with
  | nil =>
      obtain ⟨-, rfl, rfl⟩ := run_forEach_nil h
      exact ⟨⟨[], rfl⟩, List.forall_mem_nil _⟩
  | cons pivot rest ih =>
      obtain ⟨_, pivot', sent, _, rest', hpivot, hrest, -, rfl⟩ := run_forEach_cons h
      obtain ⟨⟨saved, hsaved⟩, hcarry⟩ := ih hrest
      refine ⟨?_, List.forall_mem_cons.mpr ⟨carriesKeys_of_run hkeys hpivot, hcarry⟩⟩
      rw [List.flatMap_cons, List.flatMap_cons]
      rcases run_preparePivot_cases hpivot with ⟨hnone, rfl, rfl⟩ |
        ⟨related, related', key, hsome, hsave, -, -, rfl⟩
      · have hattached : (pivot.set route.targetKey ownerKey).attached far.name = [] := hnone
        rw [hnone, hattached]
        exact ⟨saved, hsaved⟩
      · have hattached : (((pivot.setRelation far.name (.one (some related'))).set far.sourceKey
            key).set route.targetKey ownerKey).attached far.name = [related'] :=
          Entity.attached_setRelation_self pivot far.name _
        rw [hsome, hattached]
        exact ⟨_, forEach_cons_ok hsave hsaved⟩

end Edit

/-! ## Pivots that are written -/

namespace Database

/-- The statements were sent to write the entity alone, and left it as it is. -/
def Writes (db : Database) (entity' : Entity) (own : List String) : Prop :=
  ∃ entity log, db.persist entity log = ⟨.ok (), entity', log ++ own⟩

def RangesOver (db : Database) (schema : Schema) (sql : String) : Prop :=
  ∃ condition, (schema.select.addFilter condition).render db.dialect = .ok sql ∨
    (schema.deleteOf condition).render db.dialect = .ok sql

variable {db : Database} {key : Option String} {row? : Option Row} {pivot prepared pivot' : Entity}
  {log log' : Log}

theorem writes_of_run (hkeeps : pivot.KeepsValues key prepared)
    (h : db.persist prepared log = ⟨.ok (), pivot', log'⟩) :
    pivot.IsWritten key pivot' ∧ ∃ own, log' = log ++ own ∧ db.Writes pivot' own := by
  have hpersisted := run_persist h
  obtain ⟨own, rfl, -⟩ := hpersisted.log_eq
  refine ⟨⟨⟨hpersisted.relations.trans hkeeps.relations, ?_⟩, hpersisted.isStored⟩, own, rfl, _, _, h⟩
  exact fun field value hkey hnull hvalue =>
    hpersisted.get?_of_isNull (hkeeps.values field value hkey hnull hvalue) hnull

theorem writes_of_insertPivot
    (h : insertPivot db key pivot log = ⟨.ok (), pivot', log'⟩) :
    pivot.IsWritten key pivot' ∧ ∃ own, log' = log ++ own ∧ db.Writes pivot' own :=
  writes_of_run (pivot.keepsValues_resetNew key) (run_modify_bind h)

theorem writes_of_settlePivot
    (h : settlePivot db key row? pivot log = ⟨.ok (), pivot', log'⟩) :
    pivot.IsWritten key pivot' ∧ ∃ own, log' = log ++ own ∧ db.Writes pivot' own := by
  have hpersist := run_modify_bind h
  cases row? with
  | some row => exact writes_of_run (pivot.keepsValues_adopt row key) hpersist
  | none =>
      refine writes_of_run ?_ hpersist
      change pivot.KeepsValues key (pivot.withoutRow key)
      rw [Entity.withoutRow]
      split
      · exact pivot.keepsValues_resetNew key
      · exact ⟨rfl, fun _ _ _ _ hvalue => hvalue⟩

/-- In both modes every pivot is written, after its rows are selected or deleted; stale rows are
deleted at the end. -/
theorem run_reconcile {mode : PivotMode} {schema : Schema} {farKey : String} {owned : Condition}
    {pivots pivots' : List Entity}
    (h : Relation.reconcile db mode schema farKey owned pivots log = ⟨.ok (), pivots', log'⟩) :
    List.Forall₂ (Entity.IsWritten schema.declaredKey?) pivots pivots' ∧
      ∃ opening writes closing, log' = log ++ (opening ++ writes.flatten ++ closing) ∧
        List.Forall₂ db.Writes pivots' writes ∧
        ∀ sql ∈ opening ++ closing, db.RangesOver schema sql := by
  cases mode with
  | flush =>
      obtain ⟨sql, _, hsql, -, hinsert⟩ := run_execute_bind h
      obtain ⟨_, _, _, hinsert, hpure⟩ := run_bind hinsert
      obtain ⟨-, rfl, rfl⟩ := run_pure hpure
      obtain ⟨hpivots, writes, rfl, hwrites⟩ :=
        run_forEach_sends (R := Entity.IsWritten schema.declaredKey?) (S := db.Writes)
          (fun _ _ _ _ _ hpivot => writes_of_insertPivot hpivot) hinsert
      refine ⟨hpivots, [sql], writes, [], by simp, hwrites, ?_⟩
      exact List.forall_mem_singleton.mpr ⟨owned, .inr hsql⟩
  | diff =>
      obtain ⟨select, rows, hselect, -, hcast⟩ := run_execute_bind h
      obtain ⟨stored, -, hpair⟩ := run_lift_bind hcast
      obtain ⟨_, settled, written, hsettle, hdelete⟩ := run_bind (run_subject_bind hpair)
      obtain ⟨hpivots, writes, rfl, hwrites⟩ := run_forEachWith_sends
        (R := Entity.IsWritten schema.declaredKey?) (S := db.Writes)
        (fun _ _ _ _ _ hpivot => writes_of_settlePivot hpivot) (length_pairRows _ _ _ _) hsettle
      rcases run_deleteStale hdelete with ⟨rfl, ⟨-, rfl⟩ | ⟨-, sql, rfl, hsql⟩⟩
      · refine ⟨hpivots, [select], writes, [], by simp, hwrites, ?_⟩
        exact List.forall_mem_singleton.mpr ⟨owned, .inl hselect⟩
      · refine ⟨hpivots, [select], writes, [sql], by simp, hwrites, ?_⟩
        exact List.forall_mem_cons.mpr ⟨⟨owned, .inl hselect⟩,
          List.forall_mem_singleton.mpr ⟨_, .inr hsql⟩⟩

end Database

/-! ## The order of a save -/

/-- A save of an entity after its parent.  The cascade of the parent comes first; then the entity is
written with the key of the parent, which is no change of its row. -/
structure ParentRun (db : Database) (tie : Tie) (below : EmbedTree) (parent entity : Entity)
    (log : Log) (entity' : Entity) (log' : Log) where
  parent' : Entity
  key : Value
  cascade : List String
  own : List String
  save : db.save below parent log = ⟨.ok (), parent', log ++ cascade⟩
  persist : db.persist ((entity.setRelation tie.name (.one (some parent'))).set tie.sourceKey key)
    (log ++ cascade) = ⟨.ok (), entity', log'⟩
  order : log' = log ++ cascade ++ own
  single : own.length ≤ 1
  attached : entity'.attached tie.name = [parent']
  parentKey : parent'.get? tie.targetKey = some key
  notNull : key.isNull = false
  copied : entity'.get? tie.sourceKey = some key
  /-- Only an undefined number differs from itself. -/
  unmodified : ∀ schema, db.registry.schema entity.model = .ok schema →
    schema.hasField tie.sourceKey = true → entity'.isModified tie.sourceKey = !key.equals key

/-- A save of an entity before its pivots.  First the entity is written, then the far entities are
saved, and then the rows of the pivots are read or deleted and the pivots are written. -/
structure FarSideRun (db : Database) (route : Tie) (far : Relation) (below : EmbedTree)
    (entity : Entity) (log : Log) (entity' : Entity) (log' : Log) where
  persisted : Entity
  own : List String
  saved : List Unit
  farSide : List String
  opening : List String
  writes : List (List String)
  closing : List String
  persist : db.persist entity log = ⟨.ok (), persisted, log ++ own⟩
  single : own.length ≤ 1
  save : forEach (db.save below)
    ((entity.attached route.name).flatMap fun pivot => pivot.attached far.name) (log ++ own) =
      ⟨.ok saved, (entity'.attached route.name).flatMap fun pivot => pivot.attached far.name,
        log ++ own ++ farSide⟩
  order : log' = log ++ own ++ farSide ++ (opening ++ writes.flatten ++ closing)
  written : List.Forall₂ db.Writes (entity'.attached route.name) writes
  rows : ∀ sql ∈ opening ++ closing, ∃ schema, db.registry.schema route.target = .ok schema ∧
    db.RangesOver schema sql
  pivots : ∀ pivot ∈ entity'.attached route.name, pivot.isStored = true ∧
    ∃ ownerKey, entity'.get? route.sourceKey = some ownerKey ∧ ownerKey.isNull = false ∧
      pivot.CarriesKeys route far ownerKey

namespace Database

variable {db : Database} {name : String} {below : EmbedTree} {entity entity' : Entity}
  {log log' : Log}

theorem exists_parentRun {tie : Tie}
    (hrelation : db.registry.relation entity.model name = .ok (.tie tie))
    (hkind : tie.kind = .belongsTo) {parent : Entity}
    (hparent : entity.one tie.name = .ok (some parent))
    (h : db.save (.cons name below .nil) entity log = ⟨.ok (), entity', log'⟩) :
    Nonempty (ParentRun db tie below parent entity log entity' log') := by
  have hattached : entity.attached tie.name = [parent] :=
    Entity.attached_of_relation? (Entity.relation?_of_one hparent)
  obtain ⟨prepared, sent, hfirst, hpersist⟩ :=
    run_save_parent hrelation (by simp [Relation.isBelongsTo, hkind]) h
  rcases Relation.run_save_belongsTo hkind hfirst with ⟨hnone, -⟩ |
    ⟨found, parent', key, hsome, hsave, hkey, hnull, rfl⟩
  · rw [hattached] at hnone
    cases hnone
  · rw [hattached] at hsome
    cases hsome
    obtain ⟨cascade, hcascade, -⟩ := db.sends_save below parent log
    rw [hsave] at hcascade
    obtain rfl : sent = log ++ cascade := hcascade
    have hpersisted := run_persist hpersist
    obtain ⟨own, hown, hlength⟩ := hpersisted.log_eq
    have hafter : entity'.attached tie.name = [parent'] := by
      rw [Entity.attached_of_relations hpersisted.relations]
      exact Entity.attached_setRelation_self entity tie.name _
    have hget : entity'.get? tie.sourceKey = some key :=
      hpersisted.get?_of_isNull (by simp) hnull
    exact ⟨⟨parent', key, cascade, own, hsave, hpersist, hown, hlength, hafter, hkey, hnull, hget,
      fun schema hschema hfield => (hpersisted.stored hschema hfield hget).2⟩⟩

theorem exists_farSideRun_of_not_loaded {route : Tie} {far : Relation} {own : List String}
    (hpersist : db.persist entity log = ⟨.ok (), entity', log ++ own⟩) (hlength : own.length ≤ 1)
    (hslots : entity'.relation? route.name = entity.relation? route.name)
    (hnone : entity'.isLoaded route.name = false) :
    Nonempty (FarSideRun db route far below entity log entity' (log ++ own)) := by
  have hafter : entity'.attached route.name = [] := Entity.attached_of_not_loaded hnone
  have hbefore : entity.attached route.name = [] := by
    rw [Entity.attached, ← hslots]
    exact hafter
  refine ⟨⟨entity', own, [], [], [], [], [], hpersist, hlength, ?_, by simp, ?_, by simp, ?_⟩⟩
  · rw [hbefore, hafter, List.append_nil]
    rfl
  · rw [hafter]
    exact .nil
  · rw [hafter]
    exact List.forall_mem_nil _

theorem exists_farSideRun {mark correlate : String} {route : Tie} {far : Relation} {mode : PivotMode}
    (hrelation : db.registry.relation entity.model name =
      .ok (.through mark correlate route far mode)) (hloaded : entity.isLoaded mark = true)
    (hkeys : route.targetKey ≠ far.sourceKey)
    (hdeclared : ∀ schema, db.registry.schema route.target = .ok schema →
      schema.declaredKey? ≠ some route.targetKey ∧ schema.declaredKey? ≠ some far.sourceKey)
    (h : db.save (.cons name below .nil) entity log = ⟨.ok (), entity', log'⟩) :
    Nonempty (FarSideRun db route far below entity log entity' log') := by
  obtain ⟨persisted, sent, hpersist, hsave⟩ := run_save_other hrelation rfl h
  have hpersisted := run_persist hpersist
  obtain ⟨own, rfl, hlength⟩ := hpersisted.log_eq
  have hslots := Entity.relation?_of_relations hpersisted.relations
  have hmarked : persisted.isLoaded mark = true :=
    (congrArg Option.isSome (hslots mark)).trans hloaded
  rw [Relation.save_through hmarked] at hsave
  rcases Relation.run_saveThrough hsave with ⟨hnone, rfl, rfl⟩ |
    ⟨ownerKey, schema, owned, collection, results, prepared, cascade, pivots, hkey, hschema, -,
      hmany, hprepare, hreconcile, rfl⟩
  · exact exists_farSideRun_of_not_loaded hpersist hlength (hslots route.name) hnone
  · obtain ⟨hget, hnull⟩ := Entity.get?_of_requireKey hkey
    have hbefore : entity.attached route.name = collection.entities :=
      Entity.attached_of_relation?
        ((hslots route.name).symm.trans (Entity.relation?_of_many hmany))
    have hafter : (persisted.setRelation route.name
        (.many ⟨collection.model, pivots⟩)).attached route.name = pivots :=
      Entity.attached_setRelation_self persisted route.name _
    obtain ⟨⟨saved, hsaved⟩, hcarry⟩ := run_forEach_preparePivot hkeys hprepare
    obtain ⟨hwritten, opening, writes, closing, rfl, hwrites, hrows⟩ := run_reconcile hreconcile
    have hsends : (forEach (db.save below)).SendsFrom db.SaveStatement
        (collection.entities.flatMap fun pivot => pivot.attached far.name) (log ++ own) :=
      sendsFrom_forEach (fun related _ => db.sends_save below related) (log ++ own)
    obtain ⟨farSide, hfarSide, -⟩ := hsends
    rw [hsaved] at hfarSide
    obtain rfl : cascade = log ++ own ++ farSide := hfarSide
    -- the writes of the pivots do not touch what they hold
    have hheld := Entity.flatMap_attached_of_isWritten hwritten far.name
    obtain ⟨howner, hfar⟩ := hdeclared schema hschema
    refine ⟨⟨persisted, own, saved, farSide, opening, writes, closing, hpersist, hlength, ?_, rfl, ?_,
      fun sql hsql => ⟨schema, hschema, hrows sql hsql⟩, ?_⟩⟩
    · rw [hbefore, hafter, hsaved, hheld]
    · rw [hafter]
      exact hwrites
    · rw [hafter]
      intro pivot' hpivot'
      obtain ⟨pivot, hpivot, hkept⟩ := exists_of_mem_right hwritten hpivot'
      exact ⟨hkept.stored, ownerKey, hget, hnull, Entity.carriesKeys_of_keepsValues howner hfar hnull
        hkept.toKeepsValues (hcarry pivot hpivot)⟩

end Database

namespace Gallery

/-- A database that numbers the rows that are inserted. -/
def numbering (schemas : List Schema) : Database :=
  ⟨⟨Dialect.generic.platform, fun _ _ => .ok [], fun log => some (.integer (.ofNat log.length))⟩,
    ⟨.standard, schemas⟩⟩

def galleryOfImage : Tie :=
  { kind := .belongsTo, source := "Image", target := "Gallery", name := "gallery"
    correlate := "image", sourceKey := "gallery_id", targetKey := "id", fields := []
    constraints := .always }

/-- A new image of a new gallery. -/
def hungImage : Entity :=
  (Entity.new "Image").setRelation "gallery" (.one (some (Entity.new "Gallery")))

/-- A new image with a new tag. -/
def freshlyTagged : Entity :=
  ((Entity.new "Image").setRelation "tags" .through).setRelation "images_tags" (.many ⟨"ImageTag",
    [(Entity.new "ImageTag").setRelation "tag" (.one (some (Entity.new "Tag")))]⟩)

def savedHung : Outcome Entity Unit :=
  (numbering [gallery, hung]).save (.cons "gallery" .nil .nil) hungImage []

def savedTagged : Outcome Entity Unit :=
  (numbering registry.schemas).save (.cons "tags" .nil .nil) freshlyTagged []

end Gallery

/-- A parent is saved before an entity and gives its key to it; an entity is saved before its far
entities, these before its pivots, and every pivot has the keys of both. -/
theorem save_copies_keys {db : Database} {name : String} {below : EmbedTree} {relation : Relation}
    {entity entity' : Entity} {log log' : Log}
    (hrelation : db.registry.relation entity.model name = .ok relation)
    (h : db.save (.cons name below .nil) entity log = ⟨.ok (), entity', log'⟩) :
    (∀ tie parent, relation = .tie tie → tie.kind = .belongsTo →
      entity.one tie.name = .ok (some parent) →
        Nonempty (ParentRun db tie below parent entity log entity' log')) ∧
    ∀ mark correlate route far mode, relation = .through mark correlate route far mode →
      entity.isLoaded mark = true → route.targetKey ≠ far.sourceKey →
      (∀ schema, db.registry.schema route.target = .ok schema →
        schema.declaredKey? ≠ some route.targetKey ∧ schema.declaredKey? ≠ some far.sourceKey) →
        Nonempty (FarSideRun db route far below entity log entity' log') := by
  constructor
  · rintro tie parent rfl hkind hparent
    exact Database.exists_parentRun hrelation hkind hparent h
  · rintro mark correlate route far mode rfl hloaded hkeys hdeclared
    exact Database.exists_farSideRun hrelation hloaded hkeys hdeclared h

open Gallery in
/-- Keys that the database gives are copied to a new image and to a new pivot. -/
theorem save_copies_given_keys :
    Nonempty (ParentRun (numbering [gallery, hung]) galleryOfImage .nil (Entity.new "Gallery")
      hungImage [] savedHung.subject savedHung.log) ∧
    Nonempty (FarSideRun (numbering registry.schemas) (pivots "ImageTag" "images_tags")
      (tagOf "ImageTag" "image_tag") .nil freshlyTagged [] savedTagged.subject savedTagged.log) := by
  have hhung : (numbering [gallery, hung]).save (.cons "gallery" .nil .nil) hungImage [] =
      ⟨.ok (), savedHung.subject, savedHung.log⟩ := by rfl
  have htagged : (numbering registry.schemas).save (.cons "tags" .nil .nil) freshlyTagged [] =
      ⟨.ok (), savedTagged.subject, savedTagged.log⟩ := by rfl
  have hpivot : (numbering registry.schemas).registry.schema "ImageTag" = .ok imageTag := by rfl
  refine ⟨(save_copies_keys (by rfl) hhung).1 galleryOfImage _ rfl rfl (by rfl),
    (save_copies_keys (by rfl) htagged).2 "tags" "image" _ _ .diff rfl (by rfl) (by decide) ?_⟩
  intro schema hschema
  cases hschema.symm.trans hpivot
  decide

open Gallery in
example : savedTagged.log = ["INSERT INTO \"image\" DEFAULT VALUES", "INSERT INTO \"tag\" DEFAULT VALUES",
    "SELECT * FROM \"images_tags\" WHERE \"image_id\" = 1",
    "INSERT INTO \"images_tags\" (\"tag_id\", \"image_id\") VALUES (2, 1)"] := by rfl

end RecordMapper
