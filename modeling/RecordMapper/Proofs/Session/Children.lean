import RecordMapper.Proofs.Session.Cascade
import RecordMapper.Proofs.Session.Gallery

/-!
# The stored children that a save deletes

Saving an owner with its children compares two readings of the stored ids: the deletion goes by the
key of an id as the connection returned it, while the children carry keys in the form of their
schema.  The last theorem says when the two agree on what to delete.
-/

namespace RecordMapper

/-! ## Ids and keys -/

/-- The ids in a column of stored rows that identify something. -/
def storedIds (column : String) (stored : List Row) : List Value :=
  (stored.filterMap fun row => row.get? column).filter fun id => id.key?.isSome

/-- Whether a key, if there is one, is the key of an entity in a field. -/
def isKeyAmong (entities : List Entity) (field : String) (key : Option Key) : Bool :=
  key.isSome && entities.any fun entity => entity.fieldKey? field == key

namespace Schema

/-- The key of a stored id in the form that the schema gives to it. -/
def readKey? (s : Schema) (id : Value) : Option Key :=
  (s.cast s.keyName id).toOption.bind Value.key?

/-- The stored ids that, read in the form of the schema, are keys of no child. -/
def orphanIds (s : Schema) (stored : List Row) (children : List Entity) : List Value :=
  (storedIds s.keyName stored).filter fun id => !isKeyAmong children s.keyName (s.readKey? id)

/-- Whether the key of the schema is a single whole number. -/
def HasIntegralKey (s : Schema) : Prop :=
  ∃ field type, s.field? s.keyName = some field ∧ field.isArray = false ∧
    field.logicalType? = some type ∧ type.isIntegral = true

end Schema

namespace Entity

theorem many_setRelation (entity : Entity) (name : String) (collection : Collection) :
    (entity.setRelation name (.many collection)).many name = .ok collection := by
  rw [many, relation, relation?_setRelation, if_pos rfl]
  rfl

end Entity

theorem filter_eq_filter_iff {α : Type} {p q : α → Bool} {items : List α} :
    items.filter p = items.filter q ↔ ∀ item ∈ items, p item = q item := by
  constructor
  · intro h item hitem
    have hmem : item ∈ items.filter p ↔ item ∈ items.filter q := by rw [h]
    simp only [List.mem_filter, hitem, true_and] at hmem
    exact Bool.eq_iff_iff.mpr hmem
  · exact List.filter_congr

theorem missingIds_eq (column : String) (stored : List Row) (children : List Entity) :
    missingIds column stored (children.map fun child => child.fieldKey? column) =
      (storedIds column stored).filter fun id => !isKeyAmong children column id.key? := by
  rw [missingIds, storedIds, List.filter_filter]
  apply List.filter_congr
  intro id _
  have hcontains : (children.map fun child => child.fieldKey? column).contains id.key? =
      children.any fun child => child.fieldKey? column == id.key? := by
    rw [List.contains_eq_any_beq, List.any_map]
    apply List.any_congr rfl
    intro child
    exact Bool.beq_comm
  rw [hcontains, isKeyAmong]
  cases id.key?.isSome <;> simp

/-- A whole number keeps its key when it is read as an integer, unless it is written as a text. -/
theorem key?_of_castInteger? {value read : Value} (htext : ∀ text, value ≠ .text text)
    (hread : LogicalType.castInteger? value = some read) : read.key? = value.key? := by
  cases value with
  | null => cases hread
  | bool b => cases hread; rfl
  | integer n => cases hread; rfl
  | float x =>
      rw [LogicalType.castInteger?, Option.map_eq_some_iff] at hread
      obtain ⟨n, hwhole, rfl⟩ := hread
      simp only [Value.key?, hwhole]
  | text s => exact absurd rfl (htext s)
  | binary bytes => cases hread
  | array items => cases hread

namespace Schema

theorem readKey?_eq_none_or_key? {s : Schema} (hkey : s.HasIntegralKey) {id : Value}
    (hid : id.key?.isSome = true) (htext : ∀ text, id ≠ .text text) :
    s.readKey? id = none ∨ s.readKey? id = id.key? := by
  obtain ⟨field, type, hfield, harray, htype, hintegral⟩ := hkey
  have hnull : id.isNull = false := by
    cases id with
    | null => cases hid
    | _ => rfl
  have hcast : type.cast? id = LogicalType.castInteger? id := by
    cases type <;> first | rfl | cases hintegral
  simp only [readKey?, cast, hfield, hnull, harray, castScalar, htype, hcast]
  cases hread : LogicalType.castInteger? id with
  | none => exact .inl rfl
  | some read => exact .inr (key?_of_castInteger? htext hread)

end Schema

/-! ## The run -/

namespace Tie

open Edit

theorem run_saveChild {tie : Tie} {ownerKey : Value} {childKey : String}
    {save : Edit Entity Unit} {child child' : Entity} {log log' : Log} {key : Option Key}
    (h : tie.saveChild ownerKey childKey save child log = ⟨.ok key, child', log'⟩) :
    key = child'.fieldKey? childKey := by
  unfold saveChild at h
  obtain ⟨_, saved, sent, -, hrest⟩ := run_bind (run_modify_bind h)
  have hpure := run_subject_bind hrest
  obtain ⟨rfl, rfl, rfl⟩ := run_pure hpure
  rfl

theorem run_deleteMissing {db : Database} {target : Schema} {ids : List Value}
    {owner owner' : Entity} {log log' : Log}
    (h : deleteMissing db target ids owner log = ⟨.ok (), owner', log'⟩) :
    owner' = owner ∧ ((ids = [] ∧ log' = log) ∨ (ids ≠ [] ∧ ∃ sql, log' = log ++ [sql] ∧
      (target.deleteOf (.inList (.ofPath target.keyName) ids)).render db.dialect = .ok sql)) := by
  unfold deleteMissing at h
  split at h
  next hids =>
      obtain ⟨-, rfl, rfl⟩ := run_pure h
      exact ⟨rfl, .inl ⟨List.isEmpty_iff.mp hids, rfl⟩⟩
  next hids =>
      obtain ⟨sql, rows, hsql, -, hpure⟩ := Database.run_execute_bind h
      obtain ⟨-, rfl, rfl⟩ := run_pure hpure
      exact ⟨rfl, .inr ⟨fun hnil => hids (by simp [hnil]), sql, rfl, hsql⟩⟩

end Tie

/-- The steps of saving all children: the stored ids are selected, then the children are saved, and
at last the ids that no child has are deleted. -/
structure ChildrenRun (db : Database) (tie : Tie) (save : Edit Entity Unit) (owner : Entity)
    (log : Log) (owner' : Entity) (log' : Log) where
  ownerKey : Value
  target : Schema
  related : Condition
  select : String
  stored : List Row
  before : Collection
  present : List (Option Key)
  after : List Entity
  cascade : Log
  requireKey : owner.requireKey tie.sourceKey tie.source tie.name = .ok ownerKey
  schema : db.registry.schema tie.target = .ok target
  matchCondition : (Relation.tie tie).matchCondition owner = .ok related
  render : ((target.select.addColumns [.ofPath target.keyName]).addFilter related).render
    db.dialect = .ok select
  answer : db.connection.answer log select = .ok stored
  many : owner.many tie.name = .ok before
  children : Edit.forEach (tie.saveChild ownerKey target.keyName save) before.entities
    (log ++ [select]) = ⟨.ok present, after, cascade⟩
  subject : owner' = owner.setRelation tie.name (.many ⟨before.model, after⟩)
  delete : Tie.deleteMissing db target (missingIds target.keyName stored present) owner' cascade =
    ⟨.ok (), owner', log'⟩

namespace ChildrenRun

open Edit

variable {db : Database} {tie : Tie} {save : Edit Entity Unit} {owner owner' : Entity}
  {log log' : Log}

theorem exists_of_run (h : tie.saveHasMany db save owner log = ⟨.ok (), owner', log'⟩) :
    Nonempty (ChildrenRun db tie save owner log owner' log') := by
  unfold Tie.saveHasMany at h
  obtain ⟨ownerKey, hkey, hschema⟩ := run_lift_bind (run_subject_bind h)
  obtain ⟨target, htarget, hcheck⟩ := run_lift_bind hschema
  obtain ⟨_, -, hmatch⟩ := run_lift_bind hcheck
  obtain ⟨related, hrelated, hselect⟩ := run_lift_bind hmatch
  obtain ⟨select, stored, hrender, hanswer, hmany⟩ := Database.run_execute_bind hselect
  obtain ⟨present, saved, cascade, honMany, hdelete⟩ := run_bind hmany
  obtain ⟨before, after, hbefore, hchildren, rfl⟩ := run_onMany honMany
  obtain ⟨rfl, -⟩ := Tie.run_deleteMissing hdelete
  exact ⟨⟨ownerKey, target, related, select, stored, before, present, after, cascade, hkey,
    htarget, hrelated, hrender, hanswer, hbefore, hchildren, rfl, hdelete⟩⟩

variable (run : ChildrenRun db tie save owner log owner' log')

def deleted : List Value :=
  missingIds run.target.keyName run.stored run.present

theorem present_eq : run.present = run.after.map fun child => child.fieldKey? run.target.keyName :=
  run_forEach_results (fun _ _ _ _ _ hchild => Tie.run_saveChild hchild) run.children

theorem deleted_eq : run.deleted = (storedIds run.target.keyName run.stored).filter fun id =>
    !isKeyAmong run.after run.target.keyName id.key? := by
  rw [deleted, present_eq, missingIds_eq]

theorem many_after : owner'.many tie.name = .ok ⟨run.before.model, run.after⟩ := by
  calc
    owner'.many tie.name
        = (owner.setRelation tie.name (.many ⟨run.before.model, run.after⟩)).many tie.name :=
      congrArg (fun entity => entity.many tie.name) run.subject
    _ = .ok ⟨run.before.model, run.after⟩ := Entity.many_setRelation owner tie.name _

theorem log_eq : (run.deleted = [] ∧ log' = run.cascade) ∨
    (run.deleted ≠ [] ∧ ∃ sql, log' = run.cascade ++ [sql] ∧
      (run.target.deleteOf (.inList (.ofPath run.target.keyName) run.deleted)).render db.dialect =
        .ok sql) :=
  (Tie.run_deleteMissing run.delete).2

theorem extends_cascade (hsave : save.Sends db.SaveStatement) :
    Extends db.SaveStatement (log ++ [run.select]) run.cascade := by
  have hchildren : ∀ child ∈ run.before.entities, ∀ log,
      (tie.saveChild run.ownerKey run.target.keyName save).SendsFrom db.SaveStatement child log :=
    fun _ _ log => Tie.sendsFrom_saveChild _ (hsave _ log)
  have h := sendsFrom_forEach hchildren (log ++ [run.select])
  rw [SendsFrom, run.children] at h
  exact h

end ChildrenRun

/-- A save deletes exactly the stored ids that, read in the form of the schema, are keys of no
child, if and only if each stored id and its reading are both or neither keys of children.  For a
key of whole numbers only ids that are texts can break this. -/
theorem saveHasMany_deletes_orphans_iff {db : Database} {tie : Tie} {below : EmbedTree}
    {owner owner' : Entity} {log log' : Log}
    (h : tie.saveHasMany db (db.save below) owner log = ⟨.ok (), owner', log'⟩) :
    ∃ run : ChildrenRun db tie (db.save below) owner log owner' log',
      owner'.many tie.name = .ok ⟨run.before.model, run.after⟩ ∧
      Extends db.SaveStatement (log ++ [run.select]) run.cascade ∧
      ((run.deleted = [] ∧ log' = run.cascade) ∨
        (run.deleted ≠ [] ∧ ∃ sql, log' = run.cascade ++ [sql] ∧
          (run.target.deleteOf (.inList (.ofPath run.target.keyName) run.deleted)).render
            db.dialect = .ok sql)) ∧
      (run.deleted = run.target.orphanIds run.stored run.after ↔
        ∀ id ∈ storedIds run.target.keyName run.stored,
          isKeyAmong run.after run.target.keyName id.key? =
            isKeyAmong run.after run.target.keyName (run.target.readKey? id)) ∧
      (run.target.HasIntegralKey → ∀ id ∈ run.deleted, (∀ text, id ≠ .text text) →
        id ∈ run.target.orphanIds run.stored run.after) := by
  obtain ⟨run⟩ := ChildrenRun.exists_of_run h
  refine ⟨run, run.many_after, run.extends_cascade (db.sends_save below), run.log_eq, ?_, ?_⟩
  · rw [run.deleted_eq, Schema.orphanIds, filter_eq_filter_iff]
    simp only [Bool.not_inj_iff]
  · intro hintegral id hdeleted htext
    rw [run.deleted_eq, List.mem_filter] at hdeleted
    rw [Schema.orphanIds, List.mem_filter]
    obtain ⟨hstored, habsent⟩ := hdeleted
    refine ⟨hstored, ?_⟩
    have hid : id.key?.isSome = true := (List.mem_filter.mp hstored).2
    rcases Schema.readKey?_eq_none_or_key? hintegral hid htext with hnone | hsame
    · simp [hnone, isKeyAmong]
    · rw [hsame]
      exact habsent

open Gallery in
/-- An image that a gallery still has, and a row of another: only the latter is deleted. -/
theorem saveHasMany_deletes_orphan_eight :
    ∃ owner' log', ∃ run : ChildrenRun
        (database [.ofPairs [("id", .integer 7)], .ofPairs [("id", .integer 8)]]) images
        ((database [.ofPairs [("id", .integer 7)], .ofPairs [("id", .integer 8)]]).save .nil)
        (galleryWith 7) [] owner' log',
      log' = ["SELECT \"id\" FROM \"image\" WHERE \"gallery_id\" = 1",
        "DELETE FROM \"image\" WHERE \"id\" IN (8)"] ∧
      (run.deleted = run.target.orphanIds run.stored run.after ↔
        ∀ id ∈ storedIds run.target.keyName run.stored,
          isKeyAmong run.after run.target.keyName id.key? =
            isKeyAmong run.after run.target.keyName (run.target.readKey? id)) := by
  have h : images.saveHasMany
      (database [.ofPairs [("id", .integer 7)], .ofPairs [("id", .integer 8)]])
      ((database [.ofPairs [("id", .integer 7)], .ofPairs [("id", .integer 8)]]).save .nil)
      (galleryWith 7) [] = ⟨.ok (), galleryWith 7,
        ["SELECT \"id\" FROM \"image\" WHERE \"gallery_id\" = 1",
          "DELETE FROM \"image\" WHERE \"id\" IN (8)"]⟩ := by rfl
  obtain ⟨run, -, -, -, hiff, -⟩ := saveHasMany_deletes_orphans_iff h
  exact ⟨_, _, run, rfl, hiff⟩

open Gallery in
/-- A connection that gives ids as texts makes a save delete an image that the gallery has. -/
theorem saveHasMany_deletes_child_of_text_id :
    images.saveHasMany (database [.ofPairs [("id", .text "7")]])
        ((database [.ofPairs [("id", .text "7")]]).save .nil) (galleryWith 7) [] =
      ⟨.ok (), galleryWith 7, ["SELECT \"id\" FROM \"image\" WHERE \"gallery_id\" = 1",
        "DELETE FROM \"image\" WHERE \"id\" IN ('7')"]⟩ ∧
    image.readKey? (.text "7") = (storedImage 7).fieldKey? image.keyName ∧
    image.orphanIds [.ofPairs [("id", .text "7")]] [storedImage 7] = [] := by
  exact ⟨rfl, rfl, rfl⟩

end RecordMapper
