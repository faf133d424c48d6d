import RecordMapper.Proofs.Entity.Covering
import RecordMapper.Proofs.Session.Runs

/-!
# Writing entities alone

`Persisted` is the record of an entity that was written with success: by an insertion, by an update,
or by nothing when its row has nothing to change.  In each case a row stands behind the entity, and
the values that it had are still there.
-/

namespace RecordMapper

open Edit

theorem Entity.isModified_markStored {entity : Entity} {field : String} {value : Value}
    (h : entity.markStored.get? field = some value) :
    entity.markStored.isModified field = !value.equals value := by
  have hsnapshot : entity.markStored.isModified field =
      !Value.equalsOption (entity.markStored.get? field) (entity.markStored.get? field) := rfl
  rw [hsnapshot, h]
  rfl

namespace Schema

theorem get?_withGivenKey {s : Schema} {entity : Entity} {given : Option Value} {field : String}
    {value : Value} (hvalue : entity.get? field = some value) (hnull : value.isNull = false) :
    (s.withGivenKey given entity).get? field = some value := by
  cases given with
  | none => exact hvalue
  | some id =>
      rw [withGivenKey]
      split
      next hlacks =>
          rw [Entity.get?_set, if_neg ?_, hvalue]
          rintro rfl
          simp [lacksKey, hvalue, hnull] at hlacks
      next => exact hvalue

theorem withGivenKey_model (s : Schema) (given : Option Value) (entity : Entity) :
    (s.withGivenKey given entity).model = entity.model := by
  cases given with
  | none => rfl
  | some id =>
      rw [withGivenKey]
      split <;> rfl

theorem withGivenKey_relations (s : Schema) (given : Option Value) (entity : Entity) :
    (s.withGivenKey given entity).relations = entity.relations := by
  cases given with
  | none => rfl
  | some id =>
      rw [withGivenKey]
      split <;> rfl

end Schema

namespace Database

/-- What the writing of an entity alone leaves if it succeeds: a row is inserted, or the row has
nothing to change, or it is updated. -/
inductive Persisted (db : Database) (entity : Entity) (log : Log) : Entity → Log → Prop
  | inserted {schema : Schema} {sql : String} {rows : List Row} (new : entity.isStored = false)
      (known : db.registry.schema entity.model = .ok schema)
      (render : (schema.insertOf entity).render db.dialect = .ok sql)
      (answer : db.connection.answer log sql = .ok rows) :
      Persisted db entity log
        (schema.withGivenKey (db.connection.lastInsertId? (log ++ [sql])) entity).markStored
        (log ++ [sql])
  | unchanged {schema : Schema} (stored : entity.isStored = true)
      (known : db.registry.schema entity.model = .ok schema)
      (changes : (schema.changedValues entity).isEmpty = true) : Persisted db entity log entity log
  | updated {schema : Schema} {id : Value} {sql : String} {rows : List Row}
      (stored : entity.isStored = true) (known : db.registry.schema entity.model = .ok schema)
      (changes : (schema.changedValues entity).isEmpty = false)
      (key : entity.storedKey schema.keyName schema.model = .ok id)
      (render : (schema.updateOf (schema.changedValues entity) id).render db.dialect = .ok sql)
      (answer : db.connection.answer log sql = .ok rows) :
      Persisted db entity log entity.markStored (log ++ [sql])

variable {db : Database} {entity entity' : Entity} {log log' : Log}

theorem run_persist (h : db.persist entity log = ⟨.ok (), entity', log'⟩) :
    db.Persisted entity log entity' log' := by
  unfold persist at h
  obtain ⟨schema, hschema, hwrite⟩ := run_lift_bind (run_subject_bind h)
  cases hstored : entity.isStored with
  | true =>
      rw [hstored, if_pos rfl] at hwrite
      simp only [update] at hwrite
      split at hwrite
      next hunchanged =>
          obtain ⟨-, rfl, rfl⟩ := run_pure hwrite
          exact .unchanged hstored hschema hunchanged
      next hchanged =>
          obtain ⟨id, hid, hexecute⟩ := run_lift_bind hwrite
          obtain ⟨sql, rows, hsql, hanswer, hmodify⟩ := run_execute_bind hexecute
          cases hmodify
          exact .updated hstored hschema (by simpa using hchanged) hid hsql hanswer
  | false =>
      rw [hstored, if_neg (by simp)] at hwrite
      unfold insert at hwrite
      obtain ⟨sql, rows, hsql, hanswer, hgiven⟩ := run_execute_bind hwrite
      obtain ⟨given, saved, sent, hid, hmodify⟩ := run_bind hgiven
      cases hid
      cases hmodify
      exact .inserted hstored hschema hsql hanswer

namespace Persisted

theorem model (h : db.Persisted entity log entity' log') : entity'.model = entity.model := by
  cases h with
  | inserted _ _ _ _ => exact Schema.withGivenKey_model _ _ entity
  | unchanged _ _ _ => rfl
  | updated _ _ _ _ _ _ => rfl

theorem relations (h : db.Persisted entity log entity' log') :
    entity'.relations = entity.relations := by
  cases h with
  | inserted _ _ _ _ => exact Schema.withGivenKey_relations _ _ entity
  | unchanged _ _ _ => rfl
  | updated _ _ _ _ _ _ => rfl

theorem isStored (h : db.Persisted entity log entity' log') : entity'.isStored = true := by
  cases h with
  | inserted _ _ _ _ => rfl
  | unchanged stored _ _ => exact stored
  | updated _ _ _ _ _ _ => rfl

theorem get?_of_isNull {field : String} {value : Value} (h : db.Persisted entity log entity' log')
    (hvalue : entity.get? field = some value) (hnull : value.isNull = false) :
    entity'.get? field = some value := by
  cases h with
  | inserted _ _ _ _ => exact Schema.get?_withGivenKey hvalue hnull
  | unchanged _ _ _ => exact hvalue
  | updated _ _ _ _ _ _ => exact hvalue

theorem log_eq (h : db.Persisted entity log entity' log') :
    ∃ own, log' = log ++ own ∧ own.length ≤ 1 := by
  cases h with
  | @inserted _ sql _ _ _ _ _ => exact ⟨[sql], rfl, Nat.le_refl 1⟩
  | unchanged _ _ _ => exact ⟨[], (List.append_nil log).symm, Nat.zero_le 1⟩
  | @updated _ _ sql _ _ _ _ _ _ _ => exact ⟨[sql], rfl, Nat.le_refl 1⟩

theorem stored {schema : Schema} {field : String} {value : Value}
    (h : db.Persisted entity log entity' log')
    (hschema : db.registry.schema entity.model = .ok schema) (hfield : schema.hasField field = true)
    (hvalue : entity'.get? field = some value) :
    (∃ stored, entity'.stored? field = some stored ∧ value.Same stored) ∧
      entity'.isModified field = !value.equals value := by
  cases h with
  | inserted _ _ _ _ => exact ⟨⟨value, hvalue, value.same_refl⟩, Entity.isModified_markStored hvalue⟩
  | updated _ _ _ _ _ _ =>
      exact ⟨⟨value, hvalue, value.same_refl⟩, Entity.isModified_markStored hvalue⟩
  | unchanged stored known changes =>
      cases known.symm.trans hschema
      obtain ⟨row, hrow⟩ := Option.isSome_iff_exists.mp stored
      -- the field is not among the changes
      have hunmodified : entity.isModified field = false := by
        by_contra hmodified
        have hchange : (field, value) ∈ schema.changedValues entity :=
          List.mem_filter.mpr ⟨Row.get?_eq_some_iff.mp hvalue, by simp_all⟩
        rw [List.isEmpty_iff.mp changes] at hchange
        cases hchange
      have hequals : Value.equalsOption (some value) (row.get? field) = true := by
        simpa [Entity.isModified, hrow, hvalue] using hunmodified
      cases hread : row.get? field with
      | none =>
          rw [hread] at hequals
          cases hequals
      | some read =>
          rw [hread] at hequals
          have hown : value.equals value = true :=
            Value.equals_trans _ _ _ hequals (Value.equals_symm _ _ hequals)
          refine ⟨⟨read, ?_, Value.same_of_equals hequals⟩, ?_⟩
          · rw [Entity.stored?, hrow]
            exact hread
          · rw [hunmodified, hown]
            rfl

end Persisted

end Database

end RecordMapper
