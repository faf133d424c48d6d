import RecordMapper.Proofs.Session.Pivots
import RecordMapper.Proofs.Session.Retrying

/-!
# Flushes that fail

A flush deletes all rows of an owner at once, but its pivots become new one by one, each just before
it is inserted.  If a pivot fails, those after it keep the rows that they were read from, although
these rows are gone.  `FlushStops` is the record of such a flush.
-/

namespace RecordMapper

open Edit

/-- A flush that stops at a pivot: the pivots before it are stored, each by an insert of its own, it
is new itself, and those after it are as they were.  The inserts are the acknowledged ones. -/
inductive FlushStops (db : Database) (key : Option String) :
    List Entity → List Entity → List String → Prop
  | failed {pivot : Entity} {rest : List Entity} :
      FlushStops db key (pivot :: rest) (pivot.resetNew key :: rest) []
  | inserted {schema : Schema} {pivot pivot' : Entity} {rest rest' : List Entity} {sql : String}
      {inserts : List String} (known : db.registry.schema pivot.model = .ok schema)
      (render : (schema.insertOf (pivot.resetNew key)).render db.dialect = .ok sql)
      (stored : pivot'.isStored = true) (others : FlushStops db key rest rest' inserts) :
      FlushStops db key (pivot :: rest) (pivot' :: rest') (sql :: inserts)

/-- The pivot at a place counts as stored, but has no part in the inserts, of which there is one for
each pivot from the first on. -/
def Phantom (pivots : List Entity) (inserts : List String) (i : Nat) : Prop :=
  (∃ pivot ∈ pivots[i]?, pivot.isStored = true) ∧ inserts.length ≤ i

theorem exists_stored_iff {pivots pivots' : List Entity}
    (h : List.Forall₂ Entity.IsAfter pivots pivots') (i : Nat) :
    (∃ pivot ∈ pivots'[i]?, pivot.isStored = true) ↔
      ∃ pivot ∈ pivots[i]?, pivot.isStored = true := by
  induction h generalizing i with
  | nil => simp
  | cons hpivot _ ih =>
      cases i with
      | zero => simp [Entity.isStored, hpivot.2]
      | succ i => simpa using ih i

namespace FlushStops

variable {db : Database} {key : Option String} {pivots pivots' : List Entity}
  {inserts : List String}

/-- The phantoms are the pivots after the failing one that were stored before. -/
theorem phantom_iff (h : FlushStops db key pivots pivots' inserts) (i : Nat) :
    Phantom pivots' inserts i ↔
      inserts.length < i ∧ ∃ pivot ∈ pivots[i]?, pivot.isStored = true := by
  induction h generalizing i with
  | failed =>
      cases i with
      | zero => simp [Phantom, Entity.isStored, Entity.resetNew]
      | succ i => simp [Phantom]
  | inserted _ _ _ _ ih =>
      cases i with
      | zero => simp [Phantom]
      | succ i => simpa [Phantom] using ih i

end FlushStops

namespace Edit

variable {τ α : Type}

theorem fail_forEach_cons {edit : Edit τ α} {item : τ} {rest items : List τ} {error : Error}
    {log log' : Log} (h : forEach edit (item :: rest) log = ⟨.error error, items, log'⟩) :
    (∃ item', edit item log = ⟨.error error, item', log'⟩ ∧ items = item' :: rest) ∨
      ∃ a item' sent rest', edit item log = ⟨.ok a, item', sent⟩ ∧
        forEach edit rest sent = ⟨.error error, rest', log'⟩ ∧ items = item' :: rest' := by
  rcases hrun : edit item log with ⟨result, item', sent⟩
  rw [forEach, hrun] at h
  cases result with
  | error failure =>
      cases h
      exact .inl ⟨item', rfl, rfl⟩
  | ok a =>
      rcases hrest : forEach edit rest sent with ⟨results, rest', log''⟩
      simp only [hrest] at h
      cases results with
      | ok as => cases h
      | error failure =>
          cases h
          exact .inr ⟨a, item', sent, rest', rfl, hrest, rfl⟩

variable {db : Database} {key : Option String} {pivot pivot' : Entity} {error : Error}
  {log log' : Log}

theorem run_insertPivot (h : insertPivot db key pivot log = ⟨.ok (), pivot', log'⟩) :
    ∃ schema sql rows, db.registry.schema pivot.model = .ok schema ∧
      (schema.insertOf (pivot.resetNew key)).render db.dialect = .ok sql ∧
      db.connection.answer log sql = .ok rows ∧ log' = log ++ [sql] ∧ pivot'.isStored = true := by
  unfold insertPivot at h
  cases Database.run_persist (run_modify_bind h) with
  | inserted _ known render answer => exact ⟨_, _, _, known, render, answer, rfl, rfl⟩
  | unchanged stored _ _ => cases stored
  | updated stored _ _ _ _ _ => cases stored

/-- A pivot that is not inserted is new all the same. -/
theorem fail_insertPivot (h : insertPivot db key pivot log = ⟨.error error, pivot', log'⟩) :
    pivot' = pivot.resetNew key ∧
      ∃ sent, log' = log ++ sent ∧ db.connection.insertsOf log sent = [] := by
  obtain ⟨hpivot, sent, hlog, -, hsent⟩ := Database.refused_of_persist h
  exact ⟨hpivot, sent, hlog, hsent⟩

theorem flushPivots_of_deletion {pivot : Schema} {owned : Condition} {pivots : List Entity}
    {deletion : String} {rows : List Row}
    (hrender : (pivot.deleteOf owned).render db.dialect = .ok deletion)
    (hanswer : db.connection.answer log deletion = .ok rows) :
    flushPivots db pivot owned pivots log =
      ((fun _ => ()) <$> forEach (insertPivot db pivot.declaredKey?)) pivots
        (log ++ [deletion]) := by
  rw [flushPivots, hrender, Database.execute, lift_ok_bind, bind_apply, Database.send_apply,
    hanswer, ← bind_pure_comp]
  rfl

theorem flushStops_of_fail {pivots pivots' : List Entity}
    (h : forEach (insertPivot db key) pivots log = ⟨.error error, pivots', log'⟩) :
    ∃ sent, log' = log ++ sent ∧
      FlushStops db key pivots pivots' (db.connection.insertsOf log sent) := by
  -- on the pivots that are still to be inserted, with the log that has the inserts before them
  induction pivots generalizing pivots' log with
  | nil => cases h
  | cons pivot rest ih =>
      rcases fail_forEach_cons h with
        ⟨pivot', hfail, rfl⟩ | ⟨_, pivot', middle, rest', hrun, hrest, rfl⟩
      · obtain ⟨rfl, sent, rfl, hnone⟩ := fail_insertPivot hfail
        refine ⟨sent, rfl, ?_⟩
        rw [hnone]
        exact .failed
      · obtain ⟨schema, sql, rows, hknown, hrender, hanswer, rfl, hstored⟩ := run_insertPivot hrun
        obtain ⟨sent, rfl, hstops⟩ := ih hrest
        have hinserts : db.connection.insertsOf log (sql :: sent) =
            sql :: db.connection.insertsOf (log ++ [sql]) sent := by
          rw [← List.singleton_append, Connection.insertsOf_append,
            Connection.insertsOf_answered (Insert.begins_render hrender) hanswer]
          rfl
        refine ⟨sql :: sent, by simp, ?_⟩
        rw [hinserts]
        exact .inserted hknown hrender hstored hstops

end Edit

namespace Relation

variable {db : Database} {route : Tie} {far : Relation} {saveFar : Edit Entity Unit}
  {owner owner' : Entity} {error : Error} {log log' : Log}

/-- A save that flushes the pivots of an owner, up to the deletion, which is acknowledged. -/
structure Cleared (db : Database) (route : Tie) (far : Relation) (saveFar : Edit Entity Unit)
    (owner : Entity) (log : Log) where
  ownerKey : Value
  pivot : Schema
  owned : Condition
  before : Collection
  results : List Unit
  prepared : List Entity
  cascade : Log
  deletion : String
  rows : List Row
  requireKey : owner.requireKey route.sourceKey route.source route.name = .ok ownerKey
  schema : db.registry.schema route.target = .ok pivot
  matchCondition : (Relation.tie route).matchCondition owner = .ok owned
  many : owner.many route.name = .ok before
  prepare : forEach (preparePivot route far ownerKey saveFar) before.entities log =
    ⟨.ok results, prepared, cascade⟩
  render : (pivot.deleteOf owned).render db.dialect = .ok deletion
  answer : db.connection.answer cascade deletion = .ok rows

namespace Cleared

variable (cleared : Cleared db route far saveFar owner log)

theorem saveThrough_eq :
    saveThrough db route far .flush saveFar owner log =
      let inserted := forEach (insertPivot db cleared.pivot.declaredKey?) cleared.prepared
        (cleared.cascade ++ [cleared.deletion])
      ⟨inserted.result.map fun _ => (), owner.setRelation route.name
        (.many ⟨cleared.before.model, inserted.subject⟩), inserted.log⟩ := by
  have hloaded : owner.isLoaded route.name = true :=
    Entity.isLoaded_of_relation? (Entity.relation?_of_many cleared.many)
  unfold saveThrough onMany
  rw [subject_bind_apply, if_pos hloaded, cleared.requireKey, lift_ok_bind, cleared.schema,
    lift_ok_bind, cleared.matchCondition, lift_ok_bind, subject_bind_apply, cleared.many,
    lift_ok_bind, within_apply, bind_apply, cleared.prepare]
  simp only [flushPivots_of_deletion cleared.render cleared.answer, map_apply]

theorem prepared_after : List.Forall₂ Entity.IsAfter cleared.before.entities cleared.prepared :=
  run_forEach_forall₂ Entity.IsAfter (fun _ _ _ _ _ hpivot => run_preparePivot hpivot)
    cleared.prepare

end Cleared

/-- If a flush fails after its deletion was acknowledged, the pivots that were stored before and
come after the failing one still count as stored, though no insert of theirs was acknowledged. -/
theorem phantom_iff_of_failed_flush (cleared : Cleared db route far saveFar owner log)
    (h : saveThrough db route far .flush saveFar owner log = ⟨.error error, owner', log'⟩) :
    ∃ pivots sent inserts,
      owner' = owner.setRelation route.name (.many ⟨cleared.before.model, pivots⟩) ∧
      log' = cleared.cascade ++ cleared.deletion :: sent ∧
      inserts = db.connection.insertsOf (cleared.cascade ++ [cleared.deletion]) sent ∧
      FlushStops db cleared.pivot.declaredKey? cleared.prepared pivots inserts ∧
      ∀ i, Phantom pivots inserts i ↔ inserts.length < i ∧
        ∃ pivot ∈ cleared.before.entities[i]?, pivot.isStored = true := by
  rw [cleared.saveThrough_eq] at h
  rcases hinsert : forEach (insertPivot db cleared.pivot.declaredKey?) cleared.prepared
    (cleared.cascade ++ [cleared.deletion]) with ⟨result, pivots, sent⟩
  simp only [hinsert] at h
  cases result with
  | ok results => cases h
  | error failure =>
      cases h
      obtain ⟨sent, rfl, hstops⟩ := flushStops_of_fail hinsert
      refine ⟨pivots, sent, _, rfl, by simp, rfl, hstops, fun i => ?_⟩
      rw [hstops.phantom_iff, exists_stored_iff cleared.prepared_after]

end Relation

namespace Gallery

/-- The first image with three stored pivots. -/
def thriceTagged : Entity :=
  imageWith "images_tags" "ImageTag"
    [.hydrated "ImageTag" (pivotRow 1 2), .hydrated "ImageTag" (pivotRow 3 9),
      .hydrated "ImageTag" (pivotRow 4 5)]

/-- A flush whose second insert is refused. -/
def halfFlushed : Outcome Entity Unit :=
  Relation.saveThrough (refusing 2) (pivots "ImageTag" "images_tags") (tagOf "ImageTag" "image_tag")
    .flush ((refusing 2).save .nil) thriceTagged []

def firstInsert : String :=
  "INSERT INTO \"images_tags\" (\"image_id\", \"tag_id\") VALUES (1, 2)"

def secondInsert : String :=
  "INSERT INTO \"images_tags\" (\"image_id\", \"tag_id\") VALUES (1, 9)"

theorem run_halfFlushed :
    halfFlushed = ⟨.error (.backend "refused"), halfFlushed.subject,
      ["DELETE FROM \"images_tags\" WHERE \"image_id\" = 1", firstInsert, secondInsert]⟩ := by
  rfl

/-- Up to the deletion of the three rows. -/
def flushed : Relation.Cleared (refusing 2) (pivots "ImageTag" "images_tags")
    (tagOf "ImageTag" "image_tag") ((refusing 2).save .nil) thriceTagged [] where
  ownerKey := .integer 1
  pivot := imageTag
  owned := .eq (.ofPath "image_id") (.value (.integer 1))
  before := ⟨"ImageTag", thriceTagged.attached "images_tags"⟩
  results := [(), (), ()]
  prepared := thriceTagged.attached "images_tags"
  cascade := []
  deletion := "DELETE FROM \"images_tags\" WHERE \"image_id\" = 1"
  rows := []
  requireKey := rfl
  schema := rfl
  matchCondition := rfl
  many := rfl
  prepare := rfl
  render := rfl
  answer := rfl

end Gallery

open Gallery in
/-- The first of three pivots is inserted and the second is refused: the third is a phantom. -/
theorem phantom_iff_of_half_flush :
    ∃ pivots,
      halfFlushed.subject =
        thriceTagged.setRelation "images_tags" (.many ⟨"ImageTag", pivots⟩) ∧
      FlushStops (refusing 2) (some "id") (thriceTagged.attached "images_tags") pivots
        [firstInsert] ∧
      ∀ i, Phantom pivots [firstInsert] i ↔ i = 2 := by
  obtain ⟨pivots, sent, inserts, hsubject, hlog, rfl, hstops, hphantom⟩ :=
    Relation.phantom_iff_of_failed_flush flushed run_halfFlushed
  obtain rfl : [firstInsert, secondInsert] = sent := (List.cons.inj hlog).2
  have hinserts : (refusing 2).connection.insertsOf (flushed.cascade ++ [flushed.deletion])
      [firstInsert, secondInsert] = [firstInsert] := by rfl
  rw [hinserts] at hstops hphantom
  refine ⟨pivots, hsubject, hstops, fun i => (hphantom i).trans ⟨?_, ?_⟩⟩
  · rintro ⟨hafter, pivot, hpivot, -⟩
    have hlength : i < 3 := (List.getElem?_eq_some_iff.mp hpivot).1
    have hone : 1 < i := hafter
    omega
  · rintro rfl
    exact ⟨by decide, _, rfl, rfl⟩

open Gallery in
/-- The row of the third pivot is deleted and not inserted, but the pivot counts as stored: when the
pivots are saved again, it is left out. -/
theorem half_flush_leaves_phantom :
    halfFlushed = ⟨.error (.backend "refused"), halfFlushed.subject,
      ["DELETE FROM \"images_tags\" WHERE \"image_id\" = 1", firstInsert, secondInsert]⟩ ∧
    Phantom (halfFlushed.subject.attached "images_tags")
      ((refusing 2).connection.insertsOf [] halfFlushed.log) 2 ∧
    ((refusing 2).save (.cons "images_tags" .nil .nil) halfFlushed.subject halfFlushed.log).log =
      halfFlushed.log ++
        ["SELECT \"id\" FROM \"images_tags\" WHERE \"image_id\" = 1", secondInsert] := by
  have hinserts : (refusing 2).connection.insertsOf [] halfFlushed.log = [firstInsert] := by
    rw [run_halfFlushed]
    rfl
  refine ⟨run_halfFlushed, ⟨⟨_, rfl, by rfl⟩, ?_⟩, by rfl⟩
  rw [hinserts]
  decide

end RecordMapper
