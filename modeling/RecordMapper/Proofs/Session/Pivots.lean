import RecordMapper.Proofs.Session.StaleCondition
import RecordMapper.Proofs.Session.Stages
import RecordMapper.Proofs.Statement.Kind

/-!
# Saving pivots by their differences

A save through a pivot takes four steps: the far entities are saved, the stored rows of the owner are
selected, every pivot is written, and the stale rows are deleted.  `PivotsRun` is the record of a
save that succeeds.
-/

namespace RecordMapper

open Edit

/-! ## Single pivots -/

namespace Entity

/-- The pivot as a new entity, without the key of a row that it leaves. -/
def withoutRow (pivot : Entity) (key : Option String) : Entity :=
  if pivot.isStored then pivot.resetNew key else pivot

def IsAfter (entity entity' : Entity) : Prop :=
  entity'.model = entity.model ∧ entity'.snapshot = entity.snapshot

end Entity

/-- The statements that write a pivot: a new row, or the changes of the row that it takes over. -/
inductive PivotWrite (dialect : Dialect) (schema : Schema) (key : Option String) :
    Entity × Option Row → List String → Prop
  | insert {pivot : Entity} {sql : String}
      (h : (schema.insertOf (pivot.withoutRow key)).render dialect = .ok sql) :
      PivotWrite dialect schema key (pivot, none) [sql]
  | unchanged {pivot : Entity} {row : Row}
      (h : (schema.changedValues (pivot.adopt row key)).isEmpty = true) :
      PivotWrite dialect schema key (pivot, some row) []
  | update {pivot : Entity} {row : Row} {id : Value} {sql : String}
      (h : (schema.updateOf (schema.changedValues (pivot.adopt row key)) id).render dialect =
        .ok sql) : PivotWrite dialect schema key (pivot, some row) [sql]

namespace Database

theorem run_persist_new {db : Database} {schema : Schema} {entity entity' : Entity}
    {log log' : Log} (hnew : entity.isStored = false)
    (hschema : db.registry.schema entity.model = .ok schema)
    (h : db.persist entity log = ⟨.ok (), entity', log'⟩) :
    ∃ sql, (schema.insertOf entity).render db.dialect = .ok sql ∧ log' = log ++ [sql] := by
  cases run_persist h with
  | inserted _ known render _ =>
      cases known.symm.trans hschema
      exact ⟨_, render, rfl⟩
  | unchanged stored _ _ => simp [hnew] at stored
  | updated stored _ _ _ _ _ => simp [hnew] at stored

theorem run_persist_stored {db : Database} {schema : Schema} {entity entity' : Entity}
    {log log' : Log} (hstored : entity.isStored = true)
    (hschema : db.registry.schema entity.model = .ok schema)
    (h : db.persist entity log = ⟨.ok (), entity', log'⟩) :
    ((schema.changedValues entity).isEmpty = true ∧ log' = log) ∨
      ∃ id sql, (schema.changedValues entity).isEmpty = false ∧
        entity.storedKey schema.keyName schema.model = .ok id ∧
        (schema.updateOf (schema.changedValues entity) id).render db.dialect = .ok sql ∧
        log' = log ++ [sql] := by
  cases run_persist h with
  | inserted new _ _ _ => simp [hstored] at new
  | unchanged _ known changes =>
      cases known.symm.trans hschema
      exact .inl ⟨changes, rfl⟩
  | updated _ known changes key render _ =>
      cases known.symm.trans hschema
      exact .inr ⟨_, _, changes, key, render, rfl⟩

end Database

namespace Edit

theorem run_preparePivot {route : Tie} {far : Relation} {ownerKey : Value}
    {saveFar : Edit Entity Unit} {pivot pivot' : Entity} {log log' : Log}
    (h : preparePivot route far ownerKey saveFar pivot log = ⟨.ok (), pivot', log'⟩) :
    pivot.IsAfter pivot' := by
  rcases run_preparePivot_cases h with ⟨-, rfl, -⟩ | ⟨_, _, _, -, -, -, -, rfl⟩
  · exact ⟨rfl, rfl⟩
  · exact ⟨rfl, rfl⟩

theorem run_settlePivot {db : Database} {schema : Schema} {key : Option String}
    {row? : Option Row} {pivot pivot' : Entity} {log log' : Log}
    (hschema : db.registry.schema pivot.model = .ok schema)
    (h : settlePivot db key row? pivot log = ⟨.ok (), pivot', log'⟩) :
    ∃ sent, log' = log ++ sent ∧ PivotWrite db.dialect schema key (pivot, row?) sent := by
  unfold settlePivot at h
  have hpersist := run_modify_bind h
  cases row? with
  | some row =>
      have hstored : (pivot.adopt row key).isStored = true := rfl
      rcases Database.run_persist_stored hstored hschema hpersist with
        ⟨hunchanged, rfl⟩ | ⟨id, sql, -, -, hsql, rfl⟩
      · exact ⟨[], (List.append_nil _).symm, .unchanged hunchanged⟩
      · exact ⟨[sql], rfl, .update hsql⟩
  | none =>
      change db.persist (pivot.withoutRow key) log = _ at hpersist
      have hnew : (pivot.withoutRow key).isStored = false := by
        rw [Entity.withoutRow]
        split
        · rfl
        · next hstored => simpa using hstored
      have hmodel : (pivot.withoutRow key).model = pivot.model := by
        rw [Entity.withoutRow]
        split <;> rfl
      obtain ⟨sql, hsql, rfl⟩ := Database.run_persist_new hnew (hmodel ▸ hschema) hpersist
      exact ⟨[sql], rfl, .insert hsql⟩

/-! ## The writes of all pivots -/

theorem countP_insert_write {dialect : Dialect} {schema : Schema} {key : Option String}
    {pivot : Entity} {row? : Option Row} {sent : List String}
    (h : PivotWrite dialect schema key (pivot, row?) sent) :
    sent.countP StatementKind.insert.begins = if row?.isNone then 1 else 0 := by
  cases h with
  | insert hsql => simp [Insert.begins_render hsql]
  | unchanged _ => rfl
  | update hsql =>
      have hkind := StatementKind.begins_eq_decide (Update.begins_render hsql)
      simp [hkind]

theorem begins_eq_false_of_write {dialect : Dialect} {schema : Schema} {key : Option String}
    {write : Entity × Option Row} {sent : List String} {kind : StatementKind}
    (hkind : kind = .select ∨ kind = .delete)
    (h : PivotWrite dialect schema key write sent) {sql : String} (hsql : sql ∈ sent) :
    kind.begins sql = false := by
  cases h with
  | insert hinsert =>
      rw [List.mem_singleton.mp hsql, StatementKind.begins_eq_decide (Insert.begins_render hinsert)]
      rcases hkind with rfl | rfl <;> rfl
  | unchanged _ => cases hsql
  | update hupdate =>
      rw [List.mem_singleton.mp hsql, StatementKind.begins_eq_decide (Update.begins_render hupdate)]
      rcases hkind with rfl | rfl <;> rfl

theorem countP_other_writes {dialect : Dialect} {schema : Schema} {key : Option String}
    {pairs : List (Entity × Option Row)} {writes : List (List String)} {kind : StatementKind}
    (hkind : kind = .select ∨ kind = .delete)
    (h : List.Forall₂ (PivotWrite dialect schema key) pairs writes) :
    writes.flatten.countP kind.begins = 0 := by
  induction h with
  | nil => rfl
  | cons hwrite _ ih =>
      rw [List.flatten_cons, List.countP_append, ih, List.countP_eq_zero.mpr]
      intro sql hsql
      rw [begins_eq_false_of_write hkind hwrite hsql]
      simp

theorem countP_insert_writes {dialect : Dialect} {schema : Schema} {key : Option String}
    {pivots : List Entity} {rows : List (Option Row)} {writes : List (List String)}
    (hlength : rows.length = pivots.length)
    (h : List.Forall₂ (PivotWrite dialect schema key) (pivots.zip rows) writes) :
    writes.flatten.countP StatementKind.insert.begins = rows.countP Option.isNone := by
  induction rows generalizing pivots writes with
  | nil =>
      rw [List.zip_nil_right] at h
      cases h
      rfl
  | cons row? others ih =>
      cases pivots with
      | nil => cases hlength
      | cons pivot rest =>
          rw [List.zip_cons_cons] at h
          cases h with
          | cons hwrite hwrites =>
              rw [List.flatten_cons, List.countP_append, countP_insert_write hwrite,
                ih (Nat.succ.inj hlength) hwrites, List.countP_cons, Nat.add_comm]

theorem run_deleteStale {db : Database} {pivot : Schema} {stale : List Row}
    {pivots pivots' : List Entity} {log log' : Log}
    (h : deleteStale db pivot stale pivots log = ⟨.ok (), pivots', log'⟩) :
    pivots' = pivots ∧ ((stale = [] ∧ log' = log) ∨ (stale ≠ [] ∧ ∃ sql, log' = log ++ [sql] ∧
      (pivot.deleteOf (staleCondition pivot.declaredKey? stale)).render db.dialect =
        .ok sql)) := by
  unfold deleteStale at h
  split at h
  next hstale =>
      obtain ⟨-, rfl, rfl⟩ := run_pure h
      exact ⟨rfl, .inl ⟨List.isEmpty_iff.mp hstale, rfl⟩⟩
  next hstale =>
      obtain ⟨sql, rows, hsql, -, hpure⟩ := Database.run_execute_bind h
      obtain ⟨-, rfl, rfl⟩ := run_pure hpure
      exact ⟨rfl, .inr ⟨fun hnil => hstale (by simp [hnil]), sql, rfl, hsql⟩⟩

end Edit

/-! ## The run -/

/-- The steps of saving through a pivot: the far entities are saved, the stored rows are selected,
the pivots are written, and at last the stale rows are deleted. -/
structure PivotsRun (db : Database) (route : Tie) (far : Relation) (saveFar : Edit Entity Unit)
    (owner : Entity) (log : Log) (owner' : Entity) (log' : Log) where
  ownerKey : Value
  pivot : Schema
  owned : Condition
  before : Collection
  results : List Unit
  prepared : List Entity
  cascade : Log
  select : String
  rows : List Row
  stored : List Row
  after : List Entity
  written : Log
  requireKey : owner.requireKey route.sourceKey route.source route.name = .ok ownerKey
  schema : db.registry.schema route.target = .ok pivot
  matchCondition : (Relation.tie route).matchCondition owner = .ok owned
  many : owner.many route.name = .ok before
  prepare : forEach (preparePivot route far ownerKey saveFar) before.entities log =
    ⟨.ok results, prepared, cascade⟩
  render : (pivot.select.addFilter owned).render db.dialect = .ok select
  answer : db.connection.answer cascade select = .ok rows
  cast : rows.mapM pivot.castRow = .ok stored
  settle : forEachWith (settlePivot db pivot.declaredKey?)
    (pairRows pivot.declaredKey? far.sourceKey prepared stored).1 prepared (cascade ++ [select]) =
    ⟨.ok (), after, written⟩
  delete : deleteStale db pivot (staleRows pivot.declaredKey? far.sourceKey prepared stored) after
    written = ⟨.ok (), after, log'⟩
  subject : owner' = owner.setRelation route.name (.many ⟨before.model, after⟩)

namespace PivotsRun

variable {db : Database} {route : Tie} {far : Relation} {saveFar : Edit Entity Unit}
  {owner owner' : Entity} {log log' : Log}

theorem exists_of_run (hloaded : owner.isLoaded route.name = true)
    (h : Relation.saveThrough db route far .diff saveFar owner log = ⟨.ok (), owner', log'⟩) :
    Nonempty (PivotsRun db route far saveFar owner log owner' log') := by
  rcases Relation.run_saveThrough h with ⟨hnone, -⟩ |
    ⟨ownerKey, pivot, owned, before, results, prepared, cascade, after, hkey, hpivot, howned, hbefore,
      hprepare, hdiff, hsubject⟩
  · rw [hloaded] at hnone
    cases hnone
  obtain ⟨select, rows, hrender, hanswer, hcast⟩ := Database.run_execute_bind hdiff
  obtain ⟨stored, hstored, hpair⟩ := run_lift_bind hcast
  obtain ⟨_, settled, written, hsettle, hdelete⟩ := run_bind (run_subject_bind hpair)
  obtain ⟨rfl, -⟩ := run_deleteStale hdelete
  exact ⟨⟨ownerKey, pivot, owned, before, results, prepared, cascade, select, rows, stored, after,
    written, hkey, hpivot, howned, hbefore, hprepare, hrender, hanswer, hstored, hsettle, hdelete,
    hsubject⟩⟩

variable (run : PivotsRun db route far saveFar owner log owner' log')

def taken : List (Option Row) :=
  (pairRows run.pivot.declaredKey? far.sourceKey run.prepared run.stored).1

def kept : List Row :=
  keptRows run.pivot.declaredKey? far.sourceKey run.prepared run.stored

def stale : List Row :=
  staleRows run.pivot.declaredKey? far.sourceKey run.prepared run.stored

theorem prepared_after : List.Forall₂ Entity.IsAfter run.before.entities run.prepared :=
  run_forEach_forall₂ Entity.IsAfter (fun _ _ _ _ _ hpivot => run_preparePivot hpivot) run.prepare

theorem extends_cascade (hsave : saveFar.Sends db.SaveStatement) :
    Extends db.SaveStatement log run.cascade := by
  have hpivots : ∀ pivot ∈ run.before.entities, ∀ log,
      (preparePivot route far run.ownerKey saveFar).SendsFrom db.SaveStatement pivot log :=
    fun _ _ log => sendsFrom_preparePivot fun related _ => hsave related log
  have h := sendsFrom_forEach hpivots log
  rw [SendsFrom, run.prepare] at h
  exact h

theorem schema_prepared (hmodels : ∀ pivot ∈ run.before.entities, pivot.model = route.target) :
    ∀ pivot ∈ run.prepared, db.registry.schema pivot.model = .ok run.pivot := by
  intro pivot hpivot
  have hafter := List.forall₂_iff_get.mp run.prepared_after
  obtain ⟨i, hi, rfl⟩ := List.getElem_of_mem hpivot
  have hbefore : i < run.before.entities.length := hafter.1 ▸ hi
  have hsame := (hafter.2 i hbefore hi).1
  simp only [List.get_eq_getElem] at hsame
  rw [hsame, hmodels _ (List.getElem_mem hbefore)]
  exact run.schema

/-- What is sent after the far entities are saved: the selection, the writes of all pivots in their
order, and the deletion of the stale rows, if there are any. -/
theorem log_eq_of_writes {R : Entity × Option Row → List String → Prop}
    (hmodels : ∀ pivot ∈ run.before.entities, pivot.model = route.target)
    (hsettle : ∀ row? pivot pivot' log log', db.registry.schema pivot.model = .ok run.pivot →
      settlePivot db run.pivot.declaredKey? row? pivot log = ⟨.ok (), pivot', log'⟩ →
      ∃ sent, log' = log ++ sent ∧ R (pivot, row?) sent) :
    ∃ writes deletion, log' = run.cascade ++ ([run.select] ++ writes.flatten ++ deletion) ∧
      List.Forall₂ R (run.prepared.zip run.taken) writes ∧
      ((run.stale = [] ∧ deletion = []) ∨ (run.stale ≠ [] ∧ ∃ sql, deletion = [sql] ∧
        (run.pivot.deleteOf (staleCondition run.pivot.declaredKey? run.stale)).render db.dialect =
          .ok sql)) := by
  obtain ⟨writes, hwritten, hwrites⟩ := run_forEachWith_forall₂ hsettle
    (run.schema_prepared hmodels) (length_pairRows _ _ _ _) run.settle
  rcases (run_deleteStale run.delete).2 with ⟨hstale, hlog⟩ | ⟨hstale, sql, hlog, hsql⟩
  · refine ⟨writes, [], hlog.trans ?_, hwrites, .inl ⟨hstale, rfl⟩⟩
    rw [hwritten, List.append_nil, List.append_assoc]
  · refine ⟨writes, [sql], hlog.trans ?_, hwrites, .inr ⟨hstale, sql, rfl, hsql⟩⟩
    rw [hwritten]
    simp only [List.append_assoc]

theorem log_eq (hmodels : ∀ pivot ∈ run.before.entities, pivot.model = route.target) :
    ∃ writes deletion, log' = run.cascade ++ ([run.select] ++ writes.flatten ++ deletion) ∧
      List.Forall₂ (PivotWrite db.dialect run.pivot run.pivot.declaredKey?)
        (run.prepared.zip run.taken) writes ∧
      ((run.stale = [] ∧ deletion = []) ∨ (run.stale ≠ [] ∧ ∃ sql, deletion = [sql] ∧
        (run.pivot.deleteOf (staleCondition run.pivot.declaredKey? run.stale)).render db.dialect =
          .ok sql)) :=
  run.log_eq_of_writes hmodels fun _ _ _ _ _ => run_settlePivot

/-- The sending of one selection, of one insert for each pivot without a row, and of one deletion if
and only if there are stale rows, after all other statements. -/
structure SendsOnce (added : Log) : Prop where
  selects : added.countP StatementKind.select.begins = 1
  inserts : added.countP StatementKind.insert.begins + run.kept.length = run.prepared.length
  deletes : added.countP StatementKind.delete.begins = if run.stale.isEmpty then 0 else 1

theorem sendsOnce {writes : List (List String)} {deletion : List String}
    (hwrites : List.Forall₂ (PivotWrite db.dialect run.pivot run.pivot.declaredKey?)
      (run.prepared.zip run.taken) writes)
    (hdeletion : (run.stale = [] ∧ deletion = []) ∨ (run.stale ≠ [] ∧ ∃ sql, deletion = [sql] ∧
      (run.pivot.deleteOf (staleCondition run.pivot.declaredKey? run.stale)).render db.dialect =
        .ok sql)) :
    run.SendsOnce ([run.select] ++ writes.flatten ++ deletion) := by
  have hselect := StatementKind.begins_eq_decide (Select.begins_render run.render)
  have hinserts : writes.flatten.countP StatementKind.insert.begins =
      run.taken.countP Option.isNone := countP_insert_writes (length_pairRows _ _ _ _) hwrites
  have hselects := countP_other_writes (.inl rfl) hwrites
  have hdeletes := countP_other_writes (.inr rfl) hwrites
  have hnone : run.taken.countP Option.isNone + run.kept.length = run.prepared.length :=
    countP_isNone_pairRows _ _ _ _
  rcases hdeletion with ⟨hstale, rfl⟩ | ⟨hstale, sql, rfl, hsql⟩
  · constructor
    · simp [hselect, hselects]
    · simpa [List.countP_append, hselect, hinserts] using hnone
    · simp [hselect, hdeletes, hstale]
  · have hdelete := StatementKind.begins_eq_decide (Delete.begins_render hsql)
    constructor
    · simp [List.countP_append, hselect, hselects, hdelete]
    · simpa [List.countP_append, hselect, hinserts, hdelete] using hnone
    · simp [List.countP_append, hselect, hdeletes, hdelete, hstale]

/-- What a save brings about: a largest pairing of pivots and rows for each far key, the statements
that follow from it, and a deletion that is true of the rows with all values of a stale one. -/
structure Reconciles : Prop where
  cascade : Extends db.SaveStatement log run.cascade
  /-- The pivots are those of the owner, with the keys of the owner and of their far entities. -/
  pivots : List.Forall₂ Entity.IsAfter run.before.entities run.prepared
  /-- No row is taken over twice, and the rows that are not taken over are stale. -/
  rows : (run.kept ++ run.stale).Perm run.stored
  counts : ∀ key, run.kept.countP (fun row => row.hasKey far.sourceKey key) =
    min (run.prepared.countP fun pivot => pivot.fieldKey? far.sourceKey == some key)
      (run.stored.countP fun row => row.hasKey far.sourceKey key)
  /-- A pivot keeps its own row if no earlier pivot was read from it. -/
  own : ∀ earlier pivot later row, run.prepared = earlier ++ pivot :: later →
    (∀ other ∈ earlier, other.storedId? run.pivot.declaredKey? ≠
      pivot.storedId? run.pivot.declaredKey?) →
    run.stored.find? (pivot.ownsRow run.pivot.declaredKey? far.sourceKey) = some row →
    run.taken[earlier.length]? = some (some row)
  statements : ∃ writes deletion, log' = run.cascade ++ ([run.select] ++ writes.flatten ++ deletion) ∧
    run.SendsOnce ([run.select] ++ writes.flatten ++ deletion) ∧
    List.Forall₂ (PivotWrite db.dialect run.pivot run.pivot.declaredKey?)
      (run.prepared.zip run.taken) writes ∧
    ((run.stale = [] ∧ deletion = []) ∨ (run.stale ≠ [] ∧ ∃ sql, deletion = [sql] ∧
      (run.pivot.deleteOf (staleCondition run.pivot.declaredKey? run.stale)).render db.dialect =
        .ok sql))
  /-- No far key belongs to a pivot that is inserted and to a row that is deleted. -/
  apart : ∀ pivot, (pivot, none) ∈ run.prepared.zip run.taken →
    ∀ key, pivot.fieldKey? far.sourceKey = some key →
    ∀ row ∈ run.stale, row.hasKey far.sourceKey key = false
  covers : ∀ row, (staleCondition run.pivot.declaredKey? run.stale).selects row ↔
    row.isNamed (staleNames run.pivot.declaredKey? run.stale)
  covers_plain : (∀ row ∈ run.stale, row.IsPlain) →
    ∀ row ∈ run.stale, (staleCondition run.pivot.declaredKey? run.stale).selects row

theorem reconciles (hsave : saveFar.Sends db.SaveStatement)
    (hmodels : ∀ pivot ∈ run.before.entities, pivot.model = route.target) : run.Reconciles := by
  obtain ⟨writes, deletion, hlog, hwrites, hdeletion⟩ := run.log_eq hmodels
  have hspec := pairRows_spec run.pivot.declaredKey? far.sourceKey run.prepared run.stored
  constructor
  case cascade => exact run.extends_cascade hsave
  case pivots => exact run.prepared_after
  case rows => exact keptRows_append_staleRows_perm _ _ _ _
  case counts => exact countP_keptRows _ _ _ _
  case own =>
    intro earlier pivot later row hprepared hids hrow
    have hkept : (pairRows run.pivot.declaredKey? far.sourceKey (earlier ++ pivot :: later)
        run.stored).1[earlier.length]? = some (some row) := getElem?_pairRows _ _ _ hids hrow
    rw [← hprepared] at hkept
    exact hkept
  case statements => exact ⟨writes, deletion, hlog, run.sendsOnce hwrites hdeletion, hwrites, hdeletion⟩
  case apart =>
    intro pivot hpivot key hkey row hrow
    have hmissed := ((List.forall₂_iff_zip.mp hspec).2 hpivot).2 rfl row hrow
    rw [Bool.eq_false_iff, Ne, Entity.sharesFar_iff] at hmissed
    exact Bool.eq_false_iff.mpr fun hhas => hmissed ⟨key, hkey, hhas⟩
  case covers => exact fun row => selects_staleCondition
  case covers_plain =>
    intro hplain row hrow
    rw [selects_staleCondition, Row.isNamed_iff_resembles hplain (hplain row hrow)]
    exact Row.resembles_self hrow

end PivotsRun

/-- Whatever pivots an owner has and whatever rows are stored, a save pairs as many of them as it can,
inserts the other pivots and deletes the other rows. -/
theorem saveThrough_reconciles {db : Database} {route : Tie} {far : Relation} {below : EmbedTree}
    {owner owner' : Entity} {log log' : Log} (hloaded : owner.isLoaded route.name = true)
    (hmodels : ∀ pivots, owner.many route.name = .ok pivots →
      ∀ pivot ∈ pivots.entities, pivot.model = route.target)
    (h : Relation.saveThrough db route far .diff (db.save below) owner log =
      ⟨.ok (), owner', log'⟩) :
    ∃ run : PivotsRun db route far (db.save below) owner log owner' log', run.Reconciles := by
  obtain ⟨run⟩ := PivotsRun.exists_of_run hloaded h
  exact ⟨run, run.reconciles (db.sends_save below) (hmodels run.before run.many)⟩

open Gallery in
/-- A stored pivot keeps its row, a new one is inserted, and the row of another tag is deleted. -/
theorem saveThrough_reconciles_images_tags :
    ∃ owner' log', ∃ run : PivotsRun tagged (pivots "ImageTag" "images_tags")
        (tagOf "ImageTag" "image_tag") (tagged.save .nil) taggedImage [] owner' log',
      log' = ["SELECT * FROM \"images_tags\" WHERE \"image_id\" = 1",
        "INSERT INTO \"images_tags\" (\"tag_id\", \"image_id\") VALUES (5, 1)",
        "DELETE FROM \"images_tags\" WHERE \"id\" IN (3)"] ∧
      run.Reconciles := by
  have hmodels : ∀ pivots, taggedImage.many "images_tags" = .ok pivots →
      ∀ pivot ∈ pivots.entities, pivot.model = "ImageTag" := by
    intro pivots hpivots pivot hpivot
    cases hpivots
    rcases List.mem_cons.mp hpivot with rfl | hrest
    · rfl
    · rw [List.mem_singleton.mp hrest]
      rfl
  have h : Relation.saveThrough tagged (pivots "ImageTag" "images_tags")
      (tagOf "ImageTag" "image_tag") .diff (tagged.save .nil) taggedImage [] =
      ⟨.ok (), (Relation.saveThrough tagged (pivots "ImageTag" "images_tags")
        (tagOf "ImageTag" "image_tag") .diff (tagged.save .nil) taggedImage []).subject,
        ["SELECT * FROM \"images_tags\" WHERE \"image_id\" = 1",
          "INSERT INTO \"images_tags\" (\"tag_id\", \"image_id\") VALUES (5, 1)",
          "DELETE FROM \"images_tags\" WHERE \"id\" IN (3)"]⟩ := by rfl
  obtain ⟨run, hrun⟩ := saveThrough_reconciles rfl hmodels h
  exact ⟨_, _, run, rfl, hrun⟩

open Gallery in
/-- Two stale rows without ids differ in a weight only.  The weights are different numbers with the
same key, so that the deletion is not true of the second row. -/
theorem saveThrough_misses_larger_weight :
    (Relation.saveThrough (database [labelRow large, labelRow larger]) (pivots "Label" "labels")
        (tagOf "Label" "label") .diff ((database [labelRow large, labelRow larger]).save .nil)
        (imageWith "labels" "Label" []) []).log =
      ["SELECT * FROM \"labels\" WHERE \"image_id\" = 1",
        "DELETE FROM \"labels\" WHERE (\"image_id\" = 1 AND \"tag_id\" = 2 AND " ++
          "\"weight\" = 10000000000000000000)"] ∧
    staleRows none "tag_id" [] [labelRow large, labelRow larger] =
      [labelRow large, labelRow larger] ∧
    ¬ (staleCondition none [labelRow large, labelRow larger]).selects (labelRow larger) := by
  refine ⟨?_, rfl, ?_⟩
  · decide +kernel
  · decide +kernel

end RecordMapper
