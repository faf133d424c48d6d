import RecordMapper.Proofs.EmbedTree
import RecordMapper.Proofs.Session.Loading
import RecordMapper.Proofs.Session.Sending

/-!
# What an embedding fetches

A relation is embedded on all owners at once, and the tree below it on all entities that were fetched
for it.  `Visits` gives the relations that an embedding comes to in this way, each with its owners as
they were read.  `sendsFrom_embed` says that it sends nothing but the selections of their ties.
-/

namespace RecordMapper

namespace Relation

/-- The tie that an embedding fetches first. -/
def firstTie : Relation → Tie
  | tie t => t
  | through _ _ route _ _ => route

end Relation

namespace Database

/-- The entities were read from an answer to the selection of a tie for its owners. -/
def Hydrates (db : Database) (tie : Tie) (owners found : List Entity) : Prop :=
  ∃ target sql log rows, db.registry.schema tie.target = .ok target ∧
    (tie.fetchSelect target (distinctValues owners tie.sourceKey)).render db.dialect = .ok sql ∧
    db.connection.answer log sql = .ok rows ∧ target.hydrateAll rows = .ok found

/-- The relations that the embedding of a tree on entities of a model comes to, each with the tree below
it and with its owners. -/
inductive Visits (db : Database) (model : String) (tree : EmbedTree) (entities : List Entity) :
    Relation → EmbedTree → List Entity → Prop
  | root {name : String} {below : EmbedTree} {relation : Relation}
      (entry : (name, below) ∈ tree.entries)
      (known : db.registry.relation model name = .ok relation) :
      Visits db model tree entities relation below entities
  /-- The pivots are the owners of the relation that leads on from them. -/
  | far {mark correlate : String} {route : Tie} {far : Relation} {mode : PivotMode}
      {below : EmbedTree} {owners pivots : List Entity}
      (visited : Visits db model tree entities (.through mark correlate route far mode) below owners)
      (hydrated : db.Hydrates route owners pivots) : Visits db model tree entities far below pivots
  | onward {tie : Tie} {below next : EmbedTree} {owners found : List Entity} {name : String}
      {relation : Relation} (visited : Visits db model tree entities (.tie tie) below owners)
      (hydrated : db.Hydrates tie owners found) (entry : (name, next) ∈ below.entries)
      (known : db.registry.relation tie.target name = .ok relation) :
      Visits db model tree entities relation next found

/-- The property holds of every statement that the embedding of a tree can send. -/
def AllowsFetches (db : Database) (model : String) (tree : EmbedTree) (entities : List Entity)
    (allowed : String → Prop) : Prop :=
  ∀ {relation below owners target sql}, db.Visits model tree entities relation below owners →
    db.registry.schema relation.firstTie.target = .ok target →
    (relation.firstTie.fetchSelect target
      (distinctValues owners relation.firstTie.sourceKey)).render db.dialect = .ok sql → allowed sql

variable {db : Database} {model : String} {tree below : EmbedTree} {entities owners : List Entity}

theorem has_of_visits {relation : Relation}
    (h : db.Visits model tree entities relation below owners) : db.registry.Has relation := by
  induction h with
  | root _ known => exact ⟨_, _, known⟩
  | far _ _ ih => exact (Registry.has_parts ih).2
  | onward _ _ _ known => exact ⟨_, _, known⟩

theorem has_firstTie_of_visits {relation : Relation}
    (h : db.Visits model tree entities relation below owners) :
    db.registry.Has (.tie relation.firstTie) := by
  have hhas := has_of_visits h
  cases relation with
  | tie tie => exact hhas
  | through mark correlate route far mode => exact (Registry.has_parts hhas).1

end Database

/-! ## Owners -/

theorem distinctValues_of_fields {owners others : List Entity}
    (h : owners.map Entity.fields = others.map Entity.fields) (field : String) :
    distinctValues owners field = distinctValues others field := by
  have hkeyed : ∀ entities, keyedValues entities field =
      (entities.map Entity.fields).filterMap fun row =>
        (row.get? field).bind fun value => value.key?.bind fun key => some (key, value) := by
    intro entities
    rw [List.filterMap_map]
    rfl
  rw [distinctValues, distinctValues, hkeyed, hkeyed, h]

theorem map_fields_setRelation {owners : List Entity} {name : String} (related : Entity → Related) :
    (owners.map fun owner => owner.setRelation name (related owner)).map Entity.fields =
      owners.map Entity.fields := by
  rw [List.map_map]
  rfl

theorem Tie.map_fields_attachAll (tie : Tie) (fetched owners : List Entity) :
    (tie.attachAll fetched owners).map Entity.fields = owners.map Entity.fields := by
  rw [Tie.attachAll_eq, List.map_map]
  refine List.map_congr_left fun owner _ => ?_
  obtain ⟨related, hattach, -⟩ := tie.attach_eq fetched owner
  rw [Function.comp_apply, hattach]
  rfl

namespace Relation

variable {db : Database} {relation : Relation} {finish : Edit (List Entity) Unit}

/-- Attaching entities to owners leaves the values of the owners as they are. -/
theorem map_fields_of_run_embed {owners owners' : List Entity} {log log' : Log}
    (h : relation.embed db finish owners log = ⟨.ok (), owners', log'⟩) :
    owners'.map Entity.fields = owners.map Entity.fields := by
  cases relation with
  | tie tie =>
      obtain ⟨fetched, -, rfl⟩ := Tie.exists_of_run_embed h
      exact tie.map_fields_attachAll fetched owners
  | through mark correlate route far mode =>
      obtain ⟨_, middle, sent, hroute, hmark⟩ := Edit.run_bind h
      obtain ⟨fetched, -, rfl⟩ := Tie.exists_of_run_embed hroute
      cases hmark
      exact (map_fields_setRelation _).trans (route.map_fields_attachAll fetched owners)

end Relation

/-! ## Statements -/

open Edit

variable {db : Database} {model : String} {tree : EmbedTree} {entities : List Entity}
  {allowed : String → Prop}

theorem Tie.sendsFrom_embed {tie : Tie} {finish : Edit (List Entity) Unit}
    {owners current : List Entity} (hsame : current.map Entity.fields = owners.map Entity.fields)
    (hfetch : ∀ target sql, db.registry.schema tie.target = .ok target →
      (tie.fetchSelect target (distinctValues owners tie.sourceKey)).render db.dialect = .ok sql →
      allowed sql)
    (hfinish : ∀ found, db.Hydrates tie owners found → ∀ log, finish.SendsFrom allowed found log)
    (log : Log) : (tie.embed db finish).SendsFrom allowed current log := by
  refine sendsFrom_subject_bind (sendsFrom_bind ?_ fun _ _ sent _ => extends_refl sent)
  refine sendsFrom_lift_bind fun _ _ => sendsFrom_lift_bind fun _ _ => ?_
  dsimp only
  rw [distinctValues_of_fields hsame]
  split
  · exact extends_refl log
  · refine sendsFrom_lift_bind fun target htarget => Database.sendsFrom_execute_bind
      (fun sql hsql => hfetch target sql htarget hsql) fun sql rows hsql hrows => ?_
    refine sendsFrom_lift_bind fun found hfound => ?_
    exact hfinish found ⟨target, sql, log, rows, htarget, hsql, hrows, hfound⟩ (log ++ [sql])

namespace Database

/-- All relations that a part of the tree names are visited with these owners. -/
def VisitsAll (db : Database) (model : String) (tree : EmbedTree) (entities : List Entity)
    (source : String) (part : EmbedTree) (owners : List Entity) : Prop :=
  ∀ name below relation, (name, below) ∈ part.entries →
    db.registry.relation source name = .ok relation →
    db.Visits model tree entities relation below owners

/-- The embedding of a part of the tree on visited owners sends allowed statements alone. -/
def EmbedsAllowed (db : Database) (model : String) (tree : EmbedTree) (entities : List Entity)
    (allowed : String → Prop) (part : EmbedTree) : Prop :=
  ∀ {source owners current}, db.VisitsAll model tree entities source part owners →
    current.map Entity.fields = owners.map Entity.fields →
    ∀ log, (db.embed source part).SendsFrom allowed current log

end Database

/-- By induction on the relation: the way over a pivot ends in a shorter relation of the pivots. -/
theorem Relation.sendsFrom_embed (fetches : db.AllowsFetches model tree entities allowed)
    {below : EmbedTree} (hbelow : db.EmbedsAllowed model tree entities allowed below)
    {relation : Relation} {owners current : List Entity}
    (hvisited : db.Visits model tree entities relation below owners)
    (hsame : current.map Entity.fields = owners.map Entity.fields) (log : Log) :
    (relation.embed db (db.embed relation.target below)).SendsFrom allowed current log := by
  induction relation generalizing owners current log with
  | tie tie =>
      refine Tie.sendsFrom_embed hsame (fun target sql => fetches hvisited) (fun found hfound => ?_) log
      exact hbelow (fun name next relation hentry hknown => .onward hvisited hfound hentry hknown) rfl
  | through mark correlate route far mode ihFar =>
      refine sendsFrom_bind (Tie.sendsFrom_embed hsame (fun target sql => fetches hvisited)
        (fun pivots hpivots => ?_) log) fun _ _ sent _ => extends_refl sent
      exact ihFar (.far hvisited hpivots) rfl

namespace Database

/-- By induction on the tree, one relation after the other on the same owners. -/
theorem embedsAllowed (fetches : db.AllowsFetches model tree entities allowed) (part : EmbedTree) :
    db.EmbedsAllowed model tree entities allowed part := by
  induction part with
  | nil =>
      intro source owners current _ _ log
      exact extends_refl log
  | cons name below rest ihBelow ihRest =>
      intro source owners current hvisits hsame log
      refine sendsFrom_lift_bind fun relation hrelation => ?_
      have hvisited : db.Visits model tree entities relation below owners :=
        hvisits name below relation List.mem_cons_self hrelation
      refine sendsFrom_bind (Relation.sendsFrom_embed fetches ihBelow hvisited hsame log)
        fun _ middle sent hrun => ?_
      have hmiddle : middle.map Entity.fields = owners.map Entity.fields :=
        (Relation.map_fields_of_run_embed hrun).trans hsame
      exact ihRest (fun name below relation hentry => hvisits name below relation
        (List.mem_cons_of_mem _ hentry)) hmiddle sent

theorem sendsFrom_embed (fetches : db.AllowsFetches model tree entities allowed) (log : Log) :
    (db.embed model tree).SendsFrom allowed entities log :=
  embedsAllowed fetches tree (fun _ _ _ hentry hknown => .root hentry hknown) rfl log

end Database

end RecordMapper
