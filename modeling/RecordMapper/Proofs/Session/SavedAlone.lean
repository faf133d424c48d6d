import RecordMapper.Proofs.Entity.Undefined
import RecordMapper.Proofs.Session.Accounting
import RecordMapper.Proofs.Session.Gallery
import RecordMapper.Proofs.Session.Retrying

/-!
# Saving entities alone

A save without relations sends at most one statement.  If it fails the entity stays as it was; if it
succeeds nothing of the entity is left to write, so that another save finds nothing to do.
-/

namespace RecordMapper

open Edit

namespace Entity

/-- No value of the entity has an undefined number in it. -/
def IsDefined (entity : Entity) : Prop :=
  ∀ field value, entity.get? field = some value → value.holdsNaN = false

variable {entity : Entity} {field : String} {value : Value}

theorem isDefined_set (h : entity.IsDefined) (hvalue : value.holdsNaN = false) :
    (entity.set field value).IsDefined := by
  intro other found hfound
  rw [get?_set] at hfound
  split at hfound
  next =>
      cases hfound
      exact hvalue
  next => exact h other found hfound

theorem isModified_markStored_of_isDefined (h : entity.IsDefined) :
    entity.markStored.isModified field = false := by
  rw [isModified_of_snapshot rfl, Option.any_eq_false]
  exact fun value hvalue => by simp [h field value hvalue]

end Entity

namespace Schema

variable {s : Schema} {entity : Entity}

theorem isDefined_withGivenKey {given : Option Value} (h : entity.IsDefined)
    (hgiven : ∀ id, given = some id → id.holdsNaN = false) :
    (s.withGivenKey given entity).IsDefined := by
  cases given with
  | none => exact h
  | some id =>
      rw [withGivenKey]
      split
      · exact Entity.isDefined_set h (hgiven id rfl)
      · exact h

theorem changedValues_markStored (h : entity.IsDefined) : s.changedValues entity.markStored = [] := by
  rw [changedValues, List.filter_eq_nil_iff]
  rintro ⟨field, value⟩ - hchanged
  rw [Bool.and_eq_true, Entity.isModified_markStored_of_isDefined h] at hchanged
  cases hchanged.2

theorem hasField_of_mem_modified {name : String} (h : s.changedValues entity = [])
    (hname : name ∈ entity.modified) : s.hasField name = false := by
  obtain ⟨value, hvalue, hmodified⟩ := Entity.mem_modified_iff.mp hname
  by_contra hfield
  rw [Bool.not_eq_false] at hfield
  have hchanged : (name, value) ∈ s.changedValues entity :=
    List.mem_filter.mpr
      ⟨Row.get?_eq_some_iff.mp hvalue, Bool.and_eq_true_iff.mpr ⟨hfield, hmodified⟩⟩
  rw [h] at hchanged
  cases hchanged

end Schema

namespace Database

variable {db : Database} {entity entity' : Entity} {log log' : Log}

theorem save_nil (db : Database) : db.save .nil = db.persist := by
  funext entity log
  change (db.persist >>= pure) entity log = db.persist entity log
  rw [bind_pure]

theorem Persisted.changedValues {schema : Schema} (h : db.Persisted entity log entity' log')
    (hschema : db.registry.schema entity.model = .ok schema) (hdefined : entity.IsDefined)
    (hgiven : ∀ id, db.connection.lastInsertId? log' = some id → id.holdsNaN = false) :
    schema.changedValues entity' = [] := by
  cases h with
  | inserted _ _ _ _ =>
      exact Schema.changedValues_markStored (Schema.isDefined_withGivenKey hdefined hgiven)
  | updated _ _ _ _ _ _ => exact Schema.changedValues_markStored hdefined
  | unchanged _ known changes =>
      cases known.symm.trans hschema
      exact List.isEmpty_iff.mp changes

theorem persist_of_unchanged {schema : Schema} (hstored : entity.isStored = true)
    (hschema : db.registry.schema entity.model = .ok schema)
    (hchanges : schema.changedValues entity = []) (log : Log) :
    db.persist entity log = ⟨.ok (), entity, log⟩ := by
  rw [persist, subject_bind_apply, hschema, lift_ok_bind, if_pos hstored, update, hchanges]
  rfl

theorem Persisted.known (h : db.Persisted entity log entity' log') :
    ∃ schema, db.registry.schema entity.model = .ok schema := by
  cases h with
  | inserted _ known _ _ => exact ⟨_, known⟩
  | unchanged _ known _ => exact ⟨_, known⟩
  | updated _ known _ _ _ _ => exact ⟨_, known⟩

end Database

/-- A save of an entity alone sends at most one statement, and if it fails the entity is what it was.
If it succeeds the entity is stored; and unless a number in it or in its new key is undefined, no
field of its schema is modified, and another save sends nothing and changes nothing. -/
theorem save_alone_settles (db : Database) (entity : Entity) (log : Log) :
    (∃ sent, (db.save .nil entity log).log = log ++ sent ∧ sent.length ≤ 1) ∧
    (∀ error, (db.save .nil entity log).result = .error error →
      (db.save .nil entity log).subject = entity) ∧
    ∀ entity' log', db.save .nil entity log = ⟨.ok (), entity', log'⟩ →
      entity'.isStored = true ∧ (entity.IsDefined →
        (∀ id, db.connection.lastInsertId? log' = some id → id.holdsNaN = false) →
        (∀ schema name, db.registry.schema entity.model = .ok schema → name ∈ entity'.modified →
          schema.hasField name = false) ∧
        ∀ later, db.save .nil entity' later = ⟨.ok (), entity', later⟩) := by
  rw [Database.save_nil]
  refine ⟨?_, ?_, ?_⟩
  · rcases hrun : db.persist entity log with ⟨result, entity', log'⟩
    cases result with
    | error error =>
        obtain ⟨-, sent, hsent, hlength, -⟩ := Database.refused_of_persist hrun
        exact ⟨sent, hsent, hlength⟩
    | ok _ => exact (Database.run_persist hrun).log_eq
  · intro error herror
    rcases hrun : db.persist entity log with ⟨result, entity', log'⟩
    rw [hrun] at herror
    cases herror
    exact (Database.refused_of_persist hrun).1
  · intro entity' log' hrun
    have hpersisted := Database.run_persist hrun
    refine ⟨hpersisted.isStored, fun hdefined hgiven => ⟨fun schema name hschema hname => ?_, ?_⟩⟩
    · exact Schema.hasField_of_mem_modified (hpersisted.changedValues hschema hdefined hgiven) hname
    · obtain ⟨schema, hschema⟩ := hpersisted.known
      exact Database.persist_of_unchanged hpersisted.isStored (hpersisted.model ▸ hschema)
        (hpersisted.changedValues hschema hdefined hgiven)

namespace Gallery

/-- A new gallery without a key, and what becomes of it when it is saved. -/
def modern : Entity :=
  (Entity.new "Gallery").set "name" (.text "Modern")

def savedModern : Outcome Entity Unit :=
  (refusing 3).save .nil modern []

end Gallery

open Gallery in
/-- A new gallery gets its key from the database, and then there is nothing more to write. -/
theorem save_alone_settles_gallery :
    savedModern.log = ["INSERT INTO \"gallery\" (\"name\") VALUES ('Modern')"] ∧
      savedModern.subject.get? "id" = some (.integer 1) ∧
      savedModern.subject.isStored = true ∧
      (∀ name ∈ savedModern.subject.modified, gallery.hasField name = false) ∧
      ∀ later, (refusing 3).save .nil savedModern.subject later =
        ⟨.ok (), savedModern.subject, later⟩ := by
  have hrun : (refusing 3).save .nil modern [] =
      ⟨.ok (), savedModern.subject, savedModern.log⟩ := by rfl
  have hdefined : modern.IsDefined := Entity.isDefined_set (fun _ _ h => by cases h) rfl
  have hgiven : ∀ id, (refusing 3).connection.lastInsertId? savedModern.log = some id →
      id.holdsNaN = false := by
    rintro id ⟨⟩
    rfl
  have hschema : (refusing 3).registry.schema modern.model = .ok gallery := by rfl
  obtain ⟨hstored, hsettled⟩ := (save_alone_settles (refusing 3) modern []).2.2 _ _ hrun
  obtain ⟨hmodified, hagain⟩ := hsettled hdefined hgiven
  exact ⟨by rfl, by rfl, hstored, fun name => hmodified gallery name hschema, hagain⟩

end RecordMapper
