import Mathlib.Data.List.Nodup
import RecordMapper.Proofs.Entity.Covering
import RecordMapper.Proofs.Registry
import RecordMapper.Proofs.Session.Runs
import RecordMapper.Proofs.Statement.Kind

/-!
# Acknowledged inserts

A save changes a graph of entities in place and may fail between any two statements.  `Accounts` says
that what became stored up to then is exactly what the connection acknowledged: every acknowledged
insert belongs to one entity of the graph, and no entity is inserted twice.  It is stated of the
records at the positions of the graph, and it is put together from the steps of an edit.
-/

namespace RecordMapper

/-- The way from an entity to a related one: names of relations, each with a place among what is
attached under it. -/
abbrev Position := List (String × Nat)

namespace Entity

def record (entity : Entity) : Entity :=
  { entity with relations := [] }

@[simp] theorem isStored_record (entity : Entity) : entity.record.isStored = entity.isStored :=
  rfl

/-- The record at a position below an entity. -/
def recordAt? : Entity → Position → Option Entity
  | entity, [] => some entity.record
  | entity, (name, i) :: rest =>
      (entity.attached name)[i]?.bind fun related => related.recordAt? rest

theorem recordAt?_cons_of_relations {entity entity' : Entity}
    (h : entity'.relations = entity.relations) (step : String × Nat) (rest : Position) :
    entity'.recordAt? (step :: rest) = entity.recordAt? (step :: rest) := by
  rw [recordAt?, recordAt?, attached_of_relations h]

def recordIn? (entities : List Entity) : Nat × Position → Option Entity
  | (i, position) => entities[i]?.bind fun entity => entity.recordAt? position

end Entity

/-! ## Keys -/

namespace Registry

/-- The field is a key of a model, or a key that a relation compares. -/
def IsKey (registry : Registry) (field : String) : Prop :=
  (∃ schema ∈ registry.schemas, schema.keyName = field) ∨
    ∃ tie, registry.Has (.tie tie) ∧ (tie.sourceKey = field ∨ tie.targetKey = field)

/-- The entities have one model, and one value in every field that is no key. -/
structure SameButKeys (registry : Registry) (entity entity' : Entity) : Prop where
  model : entity'.model = entity.model
  values : ∀ field, ¬ registry.IsKey field → entity'.get? field = entity.get? field

variable {registry : Registry} {entity entity' entity'' : Entity}

theorem sameButKeys_refl (registry : Registry) (entity : Entity) :
    registry.SameButKeys entity entity :=
  ⟨rfl, fun _ _ => rfl⟩

theorem sameButKeys_trans (h : registry.SameButKeys entity entity')
    (h' : registry.SameButKeys entity' entity'') : registry.SameButKeys entity entity'' :=
  ⟨h'.model.trans h.model, fun field hfield => (h'.values field hfield).trans (h.values field hfield)⟩

theorem sameButKeys_set {field : String} (hkey : registry.IsKey field) (value : Value) :
    registry.SameButKeys entity (entity.set field value) := by
  refine ⟨rfl, fun other hother => ?_⟩
  rw [Entity.get?_set, if_neg]
  rintro rfl
  exact hother hkey

variable {ι : Type} {before middle after : ι → Option Entity}

/-- The records have other keys at most, and those that were stored still are. -/
def Grown (registry : Registry) (before after : ι → Option Entity) : Prop :=
  ∀ i, Option.Rel (fun entity entity' => registry.SameButKeys entity entity' ∧
    (entity.isStored = true → entity'.isStored = true)) (before i) (after i)

theorem grown_refl (registry : Registry) (records : ι → Option Entity) :
    registry.Grown records records := by
  intro i
  cases records i with
  | none => exact .none
  | some entity => exact .some ⟨sameButKeys_refl _ _, id⟩

theorem grown_trans (h : registry.Grown before middle) (h' : registry.Grown middle after) :
    registry.Grown before after := by
  intro i
  have hrel := h i
  have hrel' := h' i
  generalize before i = first at hrel
  generalize middle i = second at hrel hrel'
  generalize after i = third at hrel'
  cases hrel with
  | none => cases hrel'; exact .none
  | some hsame =>
      cases hrel' with
      | some hsame' =>
          exact .some ⟨sameButKeys_trans hsame.1 hsame'.1, fun hstored => hsame'.2 (hsame.2 hstored)⟩

theorem stored_of_grown {i : ι} {entity : Entity} (h : registry.Grown before after)
    (hbefore : ∀ found, before i = some found → found.isStored = true)
    (hafter : after i = some entity) : entity.isStored = true := by
  have hrel := h i
  rw [hafter] at hrel
  generalize hfirst : before i = first at hrel
  cases hrel with
  | some hsame => exact hsame.2 (hbefore _ hfirst)

end Registry

/-! ## What a connection acknowledged -/

namespace Connection

/-- The inserts among some statements that the connection answers, sent after those of a log. -/
def insertsOf (connection : Connection) : Log → List String → List String
  | _, [] => []
  | log, sql :: rest =>
      (if StatementKind.insert.begins sql && (connection.answer log sql).isOk then [sql] else []) ++
        insertsOf connection (log ++ [sql]) rest

theorem insertsOf_append (connection : Connection) (log : Log) (sent more : List String) :
    connection.insertsOf log (sent ++ more) =
      connection.insertsOf log sent ++ connection.insertsOf (log ++ sent) more := by
  induction sent generalizing log with
  | nil => rw [List.append_nil]; rfl
  | cons sql rest ih =>
      rw [List.cons_append, insertsOf, insertsOf, ih, List.append_assoc, List.append_assoc]
      rfl

theorem insertsOf_other (connection : Connection) (log : Log) {sql : String}
    (h : StatementKind.insert.begins sql = false) : connection.insertsOf log [sql] = [] := by
  simp [insertsOf, h]

theorem insertsOf_refused {connection : Connection} {log : Log} {sql report : String}
    (h : connection.answer log sql = .error report) : connection.insertsOf log [sql] = [] := by
  simp [insertsOf, h, Except.isOk, Except.toBool]

theorem insertsOf_answered {connection : Connection} {log : Log} {sql : String} {rows : List Row}
    (hinsert : StatementKind.insert.begins sql = true) (h : connection.answer log sql = .ok rows) :
    connection.insertsOf log [sql] = [sql] := by
  simp [insertsOf, h, hinsert, Except.isOk, Except.toBool]

end Connection

namespace Database

def InsertsAs (db : Database) (entity : Entity) (sql : String) : Prop :=
  ∃ schema written, db.registry.schema entity.model = .ok schema ∧
    db.registry.SameButKeys entity written ∧ (schema.insertOf written).render db.dialect = .ok sql

/-- Between two states of some records and two logs, the acknowledged inserts are one for each record
that became stored, in the order in which they were sent. -/
structure Accounts {ι : Type} (db : Database) (before after : ι → Option Entity) (log log' : Log)
    (inserted : List (ι × String)) : Prop where
  sent : ∃ sent, log' = log ++ sent ∧ db.connection.insertsOf log sent = inserted.map Prod.snd
  nodup : (inserted.map Prod.fst).Nodup
  records : ∀ i, Option.Rel (fun entity entity' => db.registry.SameButKeys entity entity' ∧
    (entity'.isStored = true ↔ entity.isStored = true ∨ i ∈ inserted.map Prod.fst))
    (before i) (after i)
  texts : ∀ i sql, (i, sql) ∈ inserted → ∃ entity, before i = some entity ∧
    entity.isStored = false ∧ db.InsertsAs entity sql

namespace Accounts

variable {ι κ : Type} {db : Database} {before middle after : ι → Option Entity}
  {log sent log' : Log} {inserted more : List (ι × String)}

theorem refl (db : Database) (records : ι → Option Entity) (log : Log) :
    db.Accounts records records log log [] where
  sent := ⟨[], (List.append_nil log).symm, rfl⟩
  nodup := List.nodup_nil
  records i := by
    cases records i with
    | none => exact .none
    | some entity => exact .some ⟨Registry.sameButKeys_refl _ _, by simp⟩
  texts := nofun

theorem of_other {sql : String} (records : ι → Option Entity) (log : Log)
    (h : db.connection.insertsOf log [sql] = []) :
    db.Accounts records records log (log ++ [sql]) [] :=
  { refl db records log with sent := ⟨[sql], rfl, h⟩ }

theorem exists_before (h : db.Accounts before after log log' inserted) {i : ι} {entity' : Entity}
    (hafter : after i = some entity') : ∃ entity, before i = some entity ∧
      db.registry.SameButKeys entity entity' ∧
      (entity'.isStored = true ↔ entity.isStored = true ∨ i ∈ inserted.map Prod.fst) := by
  have hrel := h.records i
  rw [hafter] at hrel
  cases hbefore : before i with
  | none =>
      rw [hbefore] at hrel
      cases hrel
  | some entity =>
      rw [hbefore] at hrel
      cases hrel with
      | some hboth => exact ⟨entity, rfl, hboth⟩

theorem eq_none (h : db.Accounts before after log log' inserted) {i : ι} (hbefore : before i = none) :
    after i = none := by
  cases hafter : after i with
  | none => rfl
  | some entity' =>
      obtain ⟨entity, hsome, -⟩ := h.exists_before hafter
      rw [hbefore] at hsome
      cases hsome

theorem exists_after (h : db.Accounts before after log log' inserted) {i : ι} {entity : Entity}
    (hbefore : before i = some entity) : ∃ entity', after i = some entity' ∧
      db.registry.SameButKeys entity entity' ∧
      (entity'.isStored = true ↔ entity.isStored = true ∨ i ∈ inserted.map Prod.fst) := by
  have hrel := h.records i
  rw [hbefore] at hrel
  cases hafter : after i with
  | none =>
      rw [hafter] at hrel
      cases hrel
  | some entity' =>
      rw [hafter] at hrel
      cases hrel with
      | some hboth => exact ⟨entity', rfl, hboth⟩

/-- A record that is inserted later was new before, so that nothing is inserted twice. -/
theorem exists_new_before (h : db.Accounts before middle log sent inserted)
    {i : ι} {entity : Entity} (hmiddle : middle i = some entity) (hnew : entity.isStored = false) :
    i ∉ inserted.map Prod.fst ∧ ∃ found, before i = some found ∧ found.isStored = false ∧
      db.registry.SameButKeys found entity := by
  obtain ⟨found, hfound, hsame, hstored⟩ := h.exists_before hmiddle
  rw [hnew] at hstored
  have hneither : ¬ (found.isStored = true ∨ i ∈ inserted.map Prod.fst) :=
    fun heither => Bool.noConfusion (hstored.mpr heither)
  exact ⟨fun hmem => hneither (.inr hmem), found, hfound,
    by simpa using fun hold => hneither (.inl hold), hsame⟩

theorem trans (h : db.Accounts before middle log sent inserted)
    (h' : db.Accounts middle after sent log' more) :
    db.Accounts before after log log' (inserted ++ more) := by
  refine ⟨?_, ?_, fun i => ?_, fun i sql hmem => ?_⟩
  · obtain ⟨first, rfl, hfirst⟩ := h.sent
    obtain ⟨second, rfl, hsecond⟩ := h'.sent
    refine ⟨first ++ second, List.append_assoc _ _ _, ?_⟩
    rw [Connection.insertsOf_append, hfirst, hsecond, List.map_append]
  · rw [List.map_append, List.nodup_append]
    refine ⟨h.nodup, h'.nodup, fun i hi j hj => ?_⟩
    rintro rfl
    obtain ⟨⟨_, sql⟩, hmore, rfl⟩ := List.mem_map.mp hj
    obtain ⟨entity, hmiddle, hnew, -⟩ := h'.texts _ sql hmore
    exact (h.exists_new_before hmiddle hnew).1 hi
  · cases hbefore : before i with
    | none => rw [h'.eq_none (h.eq_none hbefore)]; exact .none
    | some entity =>
        obtain ⟨entity', hmiddle, hsame, hstored⟩ := h.exists_after hbefore
        obtain ⟨entity'', hafter, hsame', hstored'⟩ := h'.exists_after hmiddle
        rw [hafter]
        refine .some ⟨Registry.sameButKeys_trans hsame hsame', ?_⟩
        rw [hstored', hstored, List.map_append, List.mem_append, or_assoc]
  · rcases List.mem_append.mp hmem with hmem | hmem
    · exact h.texts i sql hmem
    · obtain ⟨entity, hmiddle, hnew, schema, written, hschema, hsame, hsql⟩ := h'.texts i sql hmem
      obtain ⟨-, found, hfound, hfoundNew, hsame'⟩ := h.exists_new_before hmiddle hnew
      exact ⟨found, hfound, hfoundNew, schema, written, hsame'.model ▸ hschema,
        Registry.sameButKeys_trans hsame' hsame, hsql⟩

theorem embed {parts parts' : κ → Option Entity} {insertedParts : List (κ × String)}
    (h : db.Accounts parts parts' log log' insertedParts) (place : κ → ι)
    (hplace : Function.Injective place) (hbefore : ∀ k, before (place k) = parts k)
    (hafter : ∀ k, after (place k) = parts' k)
    (hothers : ∀ i, (∀ k, place k ≠ i) → after i = before i) :
    db.Accounts before after log log'
      (insertedParts.map fun insertion => (place insertion.1, insertion.2)) := by
  have hfst : (insertedParts.map fun insertion => (place insertion.1, insertion.2)).map Prod.fst =
      (insertedParts.map Prod.fst).map place := by simp
  refine ⟨?_, ?_, fun i => ?_, fun i sql hmem => ?_⟩
  · obtain ⟨sent, hlog, hsent⟩ := h.sent
    exact ⟨sent, hlog, by simp [hsent, Function.comp_def]⟩
  · rw [hfst]
    exact List.Nodup.map hplace h.nodup
  · rw [hfst]
    by_cases hi : ∃ k, place k = i
    · obtain ⟨k, rfl⟩ := hi
      rw [hbefore, hafter, List.mem_map_of_injective hplace]
      exact h.records k
    · rw [hothers i fun k hk => hi ⟨k, hk⟩]
      cases before i with
      | none => exact .none
      | some entity =>
          refine .some ⟨Registry.sameButKeys_refl _ _, ⟨.inl, fun heither => ?_⟩⟩
          rcases heither with hold | hmem
          · exact hold
          · obtain ⟨k, -, hk⟩ := List.mem_map.mp hmem
            exact absurd ⟨k, hk⟩ hi
  · obtain ⟨⟨k, text⟩, hpart, heq⟩ := List.mem_map.mp hmem
    cases heq
    rw [hbefore]
    exact h.texts k text hpart

theorem grown (h : db.Accounts before after log log' inserted) :
    db.registry.Grown before after := by
  intro i
  cases hbefore : before i with
  | none => rw [h.eq_none hbefore]; exact .none
  | some entity =>
      obtain ⟨entity', hafter, hsame, hstored⟩ := h.exists_after hbefore
      rw [hafter]
      exact .some ⟨hsame, fun hold => hstored.mpr (.inl hold)⟩

end Accounts

end Database

end RecordMapper
