import RecordMapper.Proofs.Condition.Constrained
import RecordMapper.Proofs.Session.Cascade
import RecordMapper.Proofs.Session.Gallery
import RecordMapper.Proofs.Session.SelectionCount

/-!
# The scope of keys

Embedding selects the rows of many owners by their keys, and a save selects and deletes rows of one
owner by its key; both also write the constraints of the relation into the clause.  Each such
statement keeps to its key exactly if the constraints are read as a conjunction.  `ScopedStatement`
lists them, together with the deletions of rows that a selection for an owner has found.
-/

namespace RecordMapper

namespace Dialect

/-- A statement with a key and constraints in its clause.  It keeps to the key exactly if the
constraints are read as a conjunction; each of them can be checked for that alone. -/
structure Scopes (d : Dialect) (key constraints : Condition) (head sql : String) : Prop where
  exact : d.KeepsTo key head sql ↔ constraints.Conjoins d
  kept : constraints.Conjoinable d → d.KeepsTo key head sql

variable {d : Dialect} {key constraints : Condition} {head sql : String}

theorem scopes_of_narrows (hkey : key.IsComparison d)
    (h : d.Narrows (key.both constraints) head sql) : d.Scopes key constraints head sql := by
  obtain ⟨clause, hclause, -, rfl⟩ := h
  obtain ⟨keyText, hkeyText, hexact, hkept⟩ := Condition.requires_both hkey hclause
  have hkeeps : d.KeepsTo key head (head ++ " WHERE " ++ clause) ↔ d.Requires keyText clause :=
    keepsTo_iff hkeyText
  exact ⟨hkeeps.trans hexact, fun hconstraints => hkeeps.mpr (hkept hconstraints)⟩

end Dialect

namespace Database

structure ServesOwner (db : Database) (relation : Relation) (owner : Entity) (key : Value)
    (head sql : String) : Prop where
  known : db.registry.Has relation
  ownerKey : owner.requireKey relation.sourceKey relation.source relation.name = .ok key
  text : db.dialect.Narrows ((relation.hasKey key).both relation.constraints) head sql
  scope : key.isScalar = true →
    db.dialect.Scopes (relation.hasKey key) relation.constraints head sql

/-- A selection of rows of owners, or a deletion. -/
inductive ScopedStatement (db : Database) (sql : String) : Prop
  /-- Rows that are related to an owner are selected. -/
  | selectsOwned {schema : Schema} {relation : Relation} {owner : Entity} {key : Value}
      {columns : List Column} {head : String}
      (hhead : schema.selectHead db.dialect columns = .ok head)
      (serves : db.ServesOwner relation owner key head sql)
  /-- All pivots of an owner are deleted. -/
  | deletesOwned {pivot : Schema} {relation : Relation} {owner : Entity} {key : Value}
      (serves : db.ServesOwner relation owner key (pivot.deleteHead db.dialect) sql)
  /-- Rows that are related to some of many owners are fetched. -/
  | fetches {target : Schema} {tie : Tie} {owners : List Entity} {keys : List Value}
      {head : String} (known : db.registry.Has (.tie tie))
      (ownerKeys : keys = distinctValues owners tie.sourceKey)
      (hhead : target.selectHead db.dialect (tie.fetchedFields.map Column.ofPath) = .ok head)
      (text : db.dialect.Narrows ((Relation.tie tie).batchCondition keys) head sql)
      (scope : (∀ key ∈ keys, key.isScalar = true) →
        db.dialect.Scopes ((Relation.tie tie).hasKeys keys) tie.constraints head sql)
  /-- Rows that a selection for an owner has found are deleted by their keys. -/
  | deletesMissing {target : Schema} {relation : Relation} {owner : Entity} {key : Value}
      {head select : String} {ids : List Value}
      (serves : db.ServesOwner relation owner key head select)
      (found : ∀ id ∈ ids, ∃ row, db.AnswersTo select row ∧ row.get? target.keyName = some id)
      (text : db.dialect.Narrows (.inList (.ofPath target.keyName) ids)
        (target.deleteHead db.dialect) sql)
  /-- Pivots that a selection for an owner has found are deleted, by their keys or by all values. -/
  | deletesStale {pivot : Schema} {relation : Relation} {owner : Entity} {key : Value}
      {head select : String} {stale : List Row}
      (serves : db.ServesOwner relation owner key head select)
      (found : ∀ row ∈ stale, ∃ answered, db.AnswersTo select answered ∧
        pivot.castRow answered = .ok row)
      (text : (pivot.deleteOf (staleCondition pivot.declaredKey? stale)).render db.dialect =
        .ok sql)

/-- The statement is scoped if it selects or deletes rows. -/
def Scoped (db : Database) (sql : String) : Prop :=
  StatementKind.select.begins sql = true ∨ StatementKind.delete.begins sql = true →
    db.ScopedStatement sql

variable {db : Database} {relation : Relation} {owner : Entity} {schema : Schema} {sql : String}

theorem scoped_of_other {kind : StatementKind} (h : kind.begins sql = true)
    (hselect : kind ≠ .select) (hdelete : kind ≠ .delete) : db.Scoped sql := by
  rintro (hbegins | hbegins)
  · exact absurd (StatementKind.begins_unique h hbegins) hselect
  · exact absurd (StatementKind.begins_unique h hbegins) hdelete

theorem servesOwner_of_narrows {owned : Condition} {head : String}
    (hknown : db.registry.Has relation) (howned : relation.matchCondition owner = .ok owned)
    (h : db.dialect.Narrows owned head sql) :
    ∃ key, db.ServesOwner relation owner key head sql := by
  obtain ⟨key, hkey, rfl⟩ := Relation.matchCondition_eq_ok howned
  exact ⟨key, hknown, hkey, h, fun hscalar =>
    Dialect.scopes_of_narrows (Condition.isComparison_eq db.dialect _ hscalar) h⟩

theorem servesOwner_of_selectsOwned {tie : Tie} {columns : List Column}
    (hknown : db.registry.Has (.tie tie)) (h : db.SelectsOwned schema tie owner columns sql) :
    ∃ key head, schema.selectHead db.dialect columns = .ok head ∧
      db.ServesOwner (.tie tie) owner key head sql := by
  obtain ⟨owned, howned, hsql⟩ := h
  obtain ⟨head, hhead, hnarrows⟩ :=
    Schema.narrows_select (Relation.speaks_matchCondition howned) hsql
  obtain ⟨key, hserves⟩ := servesOwner_of_narrows hknown howned hnarrows
  exact ⟨key, head, hhead, hserves⟩

theorem allowsSaves_scoped (db : Database) (tree : EmbedTree) (entity : Entity) :
    db.AllowsSaves tree entity db.Scoped where
  insert _ _ _ h := scoped_of_other (Insert.begins_render h) nofun nofun
  update _ _ _ _ _ h := scoped_of_other (Update.begins_render h) nofun nofun
  selectChildren howns h _ := by
    obtain ⟨key, head, hhead, hserves⟩ := servesOwner_of_selectsOwned howns.has h
    exact .selectsOwned hhead hserves
  deleteMissing howns hids _ h _ := by
    obtain ⟨select, hselect, hfound⟩ := hids
    obtain ⟨key, head, -, hserves⟩ := servesOwner_of_selectsOwned howns.has hselect
    exact .deletesMissing hserves hfound (Schema.narrows_deleteOf (Condition.speaks_inList _ _) h)
  selectPivots howns h _ := by
    obtain ⟨key, head, hhead, hserves⟩ := servesOwner_of_selectsOwned howns.has h
    exact .selectsOwned hhead hserves
  deleteStale howns hrows _ h _ := by
    obtain ⟨select, hselect, hfound⟩ := hrows
    obtain ⟨key, head, -, hserves⟩ := servesOwner_of_selectsOwned howns.has hselect
    exact .deletesStale hserves hfound h
  deleteOwned howns howned h _ := by
    have hnarrows := Schema.narrows_deleteOf (Relation.speaks_matchCondition howned) h
    obtain ⟨key, hserves⟩ := servesOwner_of_narrows howns.has howned hnarrows
    exact .deletesOwned hserves

theorem allowsFetches_scoped (db : Database) (model : String) (tree : EmbedTree)
    (owners : List Entity) : db.AllowsFetches model tree owners db.Scoped := by
  intro relation below sources target sql hvisited _ h _
  obtain ⟨head, hhead, hnarrows⟩ := Schema.narrows_select (Relation.speaks_batchCondition
    (.tie relation.firstTie) (distinctValues sources relation.firstTie.sourceKey)) h
  exact .fetches (has_firstTie_of_visits hvisited) rfl hhead hnarrows fun hscalar =>
    Dialect.scopes_of_narrows (Condition.isComparison_inList db.dialect _ hscalar) hnarrows

/-- The comparison of keys is a conjunct of the condition on related rows exactly if the constraints
are read as a conjunction.  They are if each that was added to them is guarded or is a verbatim
conjunction.  With this scope, every selection and deletion that is sent while entities are saved or
relations are embedded is for the rows of owners, or deletes rows that such a selection has found. -/
theorem keys_keep_scope (db : Database) :
    (∀ (relation : Relation) owner key condition sql,
      owner.requireKey relation.sourceKey relation.source relation.name = .ok key →
      key.isScalar = true → relation.matchCondition owner = .ok condition →
      condition.render db.dialect = .ok sql →
      ∃ keyText, (relation.hasKey key).render db.dialect = .ok keyText ∧
        (db.dialect.Requires keyText sql ↔ relation.constraints.Conjoins db.dialect) ∧
        (relation.constraints.Conjoinable db.dialect → db.dialect.Requires keyText sql)) ∧
    (∀ (relation : Relation) keys sql, (∀ key ∈ keys, key.isScalar = true) →
      (relation.batchCondition keys).render db.dialect = .ok sql →
      ∃ keyText, (relation.hasKeys keys).render db.dialect = .ok keyText ∧
        (db.dialect.Requires keyText sql ↔ relation.constraints.Conjoins db.dialect) ∧
        (relation.constraints.Conjoinable db.dialect → db.dialect.Requires keyText sql)) ∧
    (∀ (options : TieOptions) (conditions : List Condition),
      options.constraints.Conjoinable db.dialect →
      (∀ condition ∈ conditions, condition.Conjoinable db.dialect) →
      (conditions.foldl TieOptions.addConstraint options).constraints.Conjoinable db.dialect) ∧
    (∀ tree, (db.save tree).Sends db.Scoped) ∧
    ∀ model tree, (db.embed model tree).Sends db.Scoped := by
  refine ⟨?_, ?_, fun _ _ => Condition.conjoinable_addConstraints,
    fun tree entity => sendsFrom_save_of_allows (db.allowsSaves_scoped tree entity),
    fun model tree owners => sendsFrom_embed (db.allowsFetches_scoped model tree owners)⟩
  · intro relation owner key condition sql hkey hscalar hcondition hsql
    obtain ⟨key', hkey', rfl⟩ := Relation.matchCondition_eq_ok hcondition
    cases hkey.symm.trans hkey'
    exact Condition.requires_both (Condition.isComparison_eq db.dialect _ hscalar) hsql
  · intro relation keys sql hscalar hsql
    exact Condition.requires_both (Condition.isComparison_inList db.dialect _ hscalar) hsql

end Database

namespace Gallery

/-- Galleries whose images must meet verbatim SQL.  The connection gives an image of the first
gallery and an image of another one. -/
def meeting (sql : String) : Database :=
  ⟨answering [.ofPairs [("id", .integer 7)], .ofPairs [("id", .integer 9)]],
    ⟨.standard,
      [model "Gallery" "gallery" [serial "id", string "name"]
        [⟨"images", .tie .hasMany
          { target := "Image", keys := some ("id", "gallery_id"), constraints := .raw sql }⟩],
       model "Image" "image" [serial "id", integer "gallery_id", string "title"] []]⟩⟩

/-- The relation of these galleries to their images. -/
def imagesMeeting (sql : String) : Relation :=
  .tie { images with constraints := .raw sql }

end Gallery

open Gallery in
/-- One comparison as a constraint leaves the key of the gallery in force. -/
theorem keys_keep_scope_hidden :
    ((meeting "hidden = 0").embed "Gallery" (.cons "images" .nil .nil) [galleryWith 7] []).log =
        ["SELECT * FROM \"image\" WHERE \"gallery_id\" IN (1) AND hidden = 0"] ∧
      (imagesMeeting "hidden = 0").constraints.Conjoinable .generic ∧
      Dialect.generic.Requires "\"gallery_id\" IN (1)" "\"gallery_id\" IN (1) AND hidden = 0" ∧
      (meeting "hidden = 0").ScopedStatement
        "SELECT * FROM \"image\" WHERE \"gallery_id\" IN (1) AND hidden = 0" := by
  have hconstraints : (imagesMeeting "hidden = 0").constraints.Conjoinable .generic := by
    intro operand hoperand
    rw [List.mem_singleton.mp hoperand]
    have hraw : Dialect.generic.IsConjunct "hidden = 0" := by decide
    exact .inl hraw
  have hlog : ((meeting "hidden = 0").embed "Gallery" (.cons "images" .nil .nil) [galleryWith 7]
      []).log = ["SELECT * FROM \"image\" WHERE \"gallery_id\" IN (1) AND hidden = 0"] := by rfl
  obtain ⟨-, hbatch, -, -, hembed⟩ := Database.keys_keep_scope (meeting "hidden = 0")
  obtain ⟨keyText, hkeyText, -, hrequires⟩ := hbatch (imagesMeeting "hidden = 0") [.integer 1]
    "\"gallery_id\" IN (1) AND hidden = 0" (by simp [Value.isScalar]) (by rfl)
  obtain ⟨added, hadded, hscoped⟩ := hembed "Gallery" (.cons "images" .nil .nil) [galleryWith 7] []
  rw [hlog, List.nil_append] at hadded
  cases hkeyText
  refine ⟨hlog, hconstraints, hrequires hconstraints, hscoped _ ?_ (.inl (by decide))⟩
  rw [← hadded]
  exact List.mem_cons_self

open Gallery in
/-- A verbatim disjunction takes the key out of force: the selection for the first gallery is no
longer a conjunction, and the image of another gallery that it finds is deleted. -/
theorem disjunction_widens_scope :
    ((meeting "hidden = 0 OR title = 'a'").save (.cons "images" .nil .nil) (galleryWith 7) []).log =
        ["SELECT \"id\" FROM \"image\" WHERE \"gallery_id\" = 1 AND hidden = 0 OR title = 'a'",
          "DELETE FROM \"image\" WHERE \"id\" IN (9)"] ∧
      ¬ Dialect.generic.Requires "\"gallery_id\" = 1"
        "\"gallery_id\" = 1 AND hidden = 0 OR title = 'a'" := by
  refine ⟨by rfl, ?_⟩
  have hnone : Dialect.generic.conjuncts? "\"gallery_id\" = 1 AND hidden = 0 OR title = 'a'" =
      none := by decide
  rintro ⟨found, hfound, -⟩
  rw [hnone] at hfound
  cases hfound

end RecordMapper
