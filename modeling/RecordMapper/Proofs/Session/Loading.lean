import RecordMapper.Proofs.Entity.Covering
import RecordMapper.Proofs.Pointwise
import RecordMapper.Proofs.Registry
import RecordMapper.Proofs.Session.Attaching
import RecordMapper.Proofs.Session.Runs
import RecordMapper.Proofs.Session.StaleCondition
import RecordMapper.Session.Query

/-!
# Loaded entities

What a query gives was read from rows, and so was everything that it attached.  `loaded_of_run` follows
the embedding of a tree, one selection for each relation.
-/

namespace RecordMapper

namespace Tie

/-- Whether a row of the target leads to a key, once it is cast. -/
def leadsTo (tie : Tie) (target : Schema) (key : Key) (row : Row) : Bool :=
  match target.castRow row with
  | .ok cast => (cast.get? tie.targetKey).bind Value.key? == some key
  | .error _ => false

/-- The rows may answer the selection of what is related to some keys, this one among them. -/
def Fetches (db : Database) (tie : Tie) (target : Schema) (key : Key) (rows : List Row) : Prop :=
  ∃ keys log sql, (∃ value ∈ keys, Value.key? value = some key) ∧
    (tie.fetchSelect target keys).render db.dialect = .ok sql ∧
    db.connection.answer log sql = .ok rows

/-- What is attached to an entity was read from the fetched rows that lead to it. -/
def ReadFrom (db : Database) (tie : Tie) (entity : Entity) : Prop :=
  ∀ key target, entity.fieldKey? tie.sourceKey = some key →
    db.registry.schema tie.target = .ok target → ∃ rows, tie.Fetches db target key rows ∧
      List.Forall₂ (fun row related => target.castRow row = .ok related.fields)
        (rows.filter (tie.leadsTo target key)) (entity.attached tie.name)

/-- What a tie has attached to an entity was related to it and read from rows. -/
structure Loads (db : Database) (tie : Tie) (entity : Entity) : Prop where
  models : ∀ related ∈ entity.attached tie.name, related.model = tie.target
  keys : ∀ related ∈ entity.attached tie.name, ∃ key,
    entity.fieldKey? tie.sourceKey = some key ∧ related.fieldKey? tie.targetKey = some key
  shape : ∀ collection, entity.relation? tie.name = some (.many collection) → tie.kind = .hasMany
  rows : tie.kind = .hasMany → entity.isLoaded tie.name = true → tie.ReadFrom db entity

end Tie

/-- The entity agrees with the row that it was read from, and so does everything attached to it. -/
inductive Entity.Loaded (db : Database) : Entity → Prop
  | intro {entity : Entity} (snapshot : entity.snapshot = some entity.fields)
      (marks : ∀ name own correlate route far mode, db.registry.relation entity.model name =
        .ok (.through own correlate route far mode) → entity.attached name = [])
      (ties : ∀ tie : Tie, db.registry.relation entity.model tie.name = .ok (.tie tie) →
        tie.Loads db entity)
      (below : ∀ name, ∀ related ∈ entity.attached name, related.Loaded db) : entity.Loaded db

namespace Entity

variable {db : Database} {entity : Entity}

theorem loaded_hydrated (db : Database) (model : String) (row : Row) :
    (hydrated model row).Loaded db := by
  have hnothing : ∀ name, (hydrated model row).attached name = [] := fun _ => rfl
  refine .intro rfl (fun name _ _ _ _ _ _ => hnothing name) (fun tie _ => ⟨?_, ?_, ?_, ?_⟩) ?_
  · exact fun related hrelated => by cases hrelated
  · exact fun related hrelated => by cases hrelated
  · exact fun collection hcollection => by cases hcollection
  · exact fun _ hloaded => by cases hloaded
  · exact fun name related hrelated => by cases hrelated

theorem loaded_setRelation {name : String} {related : Related} (h : entity.Loaded db)
    (hmark : ∀ own correlate route far mode, db.registry.relation entity.model name =
      .ok (.through own correlate route far mode) → related.entities = [])
    (htie : ∀ tie : Tie, tie.name = name → db.registry.relation entity.model name = .ok (.tie tie) →
      tie.Loads db (entity.setRelation name related))
    (hbelow : ∀ found ∈ related.entities, found.Loaded db) :
    (entity.setRelation name related).Loaded db := by
  obtain ⟨snapshot, marks, ties, below⟩ := h
  refine .intro snapshot (fun other own correlate route far mode hother => ?_)
    (fun tie hother => ?_) (fun other found hfound => ?_)
  · rw [attached_setRelation]
    by_cases hname : other = name
    · rw [if_pos hname]
      exact hmark own correlate route far mode (hname ▸ hother)
    · rw [if_neg hname]
      exact marks other own correlate route far mode hother
  · by_cases hname : tie.name = name
    · exact htie tie hname (hname ▸ hother)
    · obtain ⟨models, keys, shape, rows⟩ := ties tie hother
      have hattached : (entity.setRelation name related).attached tie.name =
          entity.attached tie.name := by rw [attached_setRelation, if_neg hname]
      have hrelation : (entity.setRelation name related).relation? tie.name =
          entity.relation? tie.name := by rw [relation?_setRelation, if_neg hname]
      refine ⟨hattached ▸ models, hattached ▸ keys, hrelation ▸ shape, fun hkind hloaded => ?_⟩
      rw [isLoaded, hrelation] at hloaded
      intro key target hkey htarget
      rw [hattached]
      exact rows hkind hloaded key target hkey htarget
  · rw [attached_setRelation] at hfound
    by_cases hname : other = name
    · rw [if_pos hname] at hfound
      exact hbelow found hfound
    · rw [if_neg hname] at hfound
      exact below other found hfound

theorem loaded_mark {name own correlate : String} {route : Tie} {far : Relation} {mode : PivotMode}
    (h : entity.Loaded db) (hrelation : db.registry.relation entity.model name =
      .ok (.through own correlate route far mode)) :
    (entity.setRelation name .through).Loaded db := by
  refine loaded_setRelation h (fun _ _ _ _ _ _ => rfl) (fun tie _ htie => ?_) nofun
  cases hrelation.symm.trans htie

end Entity

/-! ## Fetching -/

theorem keyedValues_spec {owners : List Entity} {field : String} {pair : Key × Value}
    (h : pair ∈ keyedValues owners field) :
    pair.2.key? = some pair.1 ∧ ∃ owner ∈ owners, owner.get? field = some pair.2 := by
  obtain ⟨owner, howner, hpair⟩ := List.mem_filterMap.mp h
  obtain ⟨value, hvalue, hpair⟩ := Option.bind_eq_some_iff.mp hpair
  obtain ⟨key, hkey, hpair⟩ := Option.bind_eq_some_iff.mp hpair
  cases hpair
  exact ⟨hkey, owner, howner, hvalue⟩

theorem exists_distinctValue {entities : List Entity} {entity : Entity} {field : String} {key : Key}
    (hentity : entity ∈ entities) (hkey : entity.fieldKey? field = some key) :
    ∃ value ∈ distinctValues entities field, value.key? = some key := by
  obtain ⟨value, hvalue, hvalueKey⟩ := Option.bind_eq_some_iff.mp hkey
  have hmem : (key, value) ∈ keyedValues entities field := by
    refine List.mem_filterMap.mpr ⟨entity, hentity, ?_⟩
    simp [hvalue, hvalueKey]
  obtain ⟨pair, hpair, hsame⟩ := exists_mem_eraseDupsBy Prod.fst _ hmem
  refine ⟨pair.2, List.mem_map_of_mem hpair, ?_⟩
  rw [(keyedValues_spec (mem_of_mem_eraseDupsBy _ hpair)).1, hsame]

namespace Edit

variable {σ τ : Type}

theorem run_applyTo {value value' : τ} {edit : Edit τ Unit} {subject subject' : σ} {log log' : Log}
    (h : (applyTo value edit : Edit σ τ) subject log = ⟨.ok value', subject', log'⟩) :
    edit value log = ⟨.ok (), value', log'⟩ ∧ subject' = subject := by
  rcases hrun : edit value log with ⟨result, after, sent⟩
  rw [applyTo_apply, hrun] at h
  cases result with
  | error error => cases h
  | ok _ =>
      cases h
      exact ⟨rfl, rfl⟩

def Embeds (db : Database) (model : String) (edit : Edit (List Entity) Unit) : Prop :=
  ∀ owners log owners' log', edit owners log = ⟨.ok (), owners', log'⟩ →
    (∀ owner ∈ owners, owner.model = model ∧ owner.Loaded db) →
      List.Forall₂ (fun owner owner' => owner'.fields = owner.fields ∧ owner'.model = model ∧
        Entity.Loaded db owner') owners owners'

variable {db : Database} {model : String}

theorem embeds_pure : (pure () : Edit (List Entity) Unit).Embeds db model := by
  intro owners log owners' log' h howners
  obtain ⟨-, rfl, -⟩ := run_pure h
  exact List.forall₂_same.mpr fun owner howner => ⟨rfl, howners owner howner⟩

theorem embeds_bind {edit next : Edit (List Entity) Unit} (hedit : edit.Embeds db model)
    (hnext : next.Embeds db model) : (edit >>= fun _ => next).Embeds db model := by
  intro owners log owners' log' h howners
  obtain ⟨_, middle, sent, hrun, hrest⟩ := run_bind h
  have hfirst := hedit owners log middle sent hrun howners
  have hmiddle : ∀ owner ∈ middle, owner.model = model ∧ owner.Loaded db := by
    intro owner howner
    obtain ⟨_, _, -, hloaded⟩ := exists_of_mem_right hfirst howner
    exact hloaded
  have hsecond := hnext middle sent owners' log' hrest hmiddle
  refine forall₂_comp hfirst hsecond fun a b c hab hbc => ?_
  exact ⟨hbc.1.trans hab.1, hbc.2⟩

theorem embeds_modify {change : Entity → Entity} (h : ∀ owner : Entity, owner.model = model →
      owner.Loaded db → (change owner).fields = owner.fields ∧ (change owner).model = model ∧
        (change owner).Loaded db) :
    (modify fun owners => owners.map change).Embeds db model := by
  intro owners log owners' log' hrun howners
  cases hrun
  rw [List.forall₂_map_right_iff, List.forall₂_same]
  exact fun owner howner => h owner (howners owner howner).1 (howners owner howner).2

end Edit

namespace Database

variable {σ : Type} {db : Database}

theorem exists_of_run_load {schema : Schema} {select : Select} {finish : Edit (List Entity) Unit}
    {subject subject' : σ} {log log' : Log} {entities : List Entity}
    (h : (db.load schema select finish : Edit σ (List Entity)) subject log =
      ⟨.ok entities, subject', log'⟩) :
    subject' = subject ∧ ∃ sql rows hydrated, select.render db.dialect = .ok sql ∧
      db.connection.answer log sql = .ok rows ∧ schema.hydrateAll rows = .ok hydrated ∧
      finish hydrated (log ++ [sql]) = ⟨.ok (), entities, log'⟩ := by
  unfold load at h
  obtain ⟨sql, rows, hsql, hrows, h⟩ := run_execute_bind h
  obtain ⟨hydrated, hhydrated, h⟩ := Edit.run_lift_bind h
  obtain ⟨hrun, hsubject⟩ := Edit.run_applyTo h
  exact ⟨hsubject, sql, rows, hydrated, hsql, hrows, hhydrated, hrun⟩

theorem read_of_hydrateAll {schema : Schema} {finish : Edit (List Entity) Unit} {rows : List Row}
    {hydrated entities : List Entity} {log log' : Log} (hfinish : finish.Embeds db schema.model)
    (hhydrated : schema.hydrateAll rows = .ok hydrated)
    (hrun : finish hydrated log = ⟨.ok (), entities, log'⟩) :
    List.Forall₂ (fun row entity => schema.castRow row = .ok entity.fields ∧
      entity.model = schema.model ∧ Entity.Loaded db entity) rows entities := by
  have hread : List.Forall₂ (fun row entity => schema.castRow row = .ok entity.fields ∧
      entity.model = schema.model ∧ Entity.Loaded db entity) rows hydrated := by
    refine (attempt_mapM_eq_ok.mp hhydrated).imp fun row entity hentity => ?_
    obtain ⟨cast, hcast, hentity⟩ := attempt_bind_eq_ok.mp hentity
    cases hentity
    exact ⟨hcast, rfl, Entity.loaded_hydrated db schema.model cast⟩
  have hhydratedLoaded : ∀ entity ∈ hydrated, entity.model = schema.model ∧ entity.Loaded db := by
    intro entity hentity
    obtain ⟨row, -, -, hloaded⟩ := exists_of_mem_right hread hentity
    exact hloaded
  have hfinished := hfinish hydrated _ entities log' hrun hhydratedLoaded
  refine forall₂_comp hread hfinished ?_
  rintro row entity entity' ⟨hcast, -, -⟩ ⟨hfields, hloaded⟩
  exact ⟨hfields ▸ hcast, hloaded⟩

theorem run_load {schema : Schema} {select : Select} {finish : Edit (List Entity) Unit}
    {subject subject' : σ} {log log' : Log} {entities : List Entity}
    (hfinish : finish.Embeds db schema.model)
    (h : (db.load schema select finish : Edit σ (List Entity)) subject log =
      ⟨.ok entities, subject', log'⟩) :
    subject' = subject ∧ ∃ sql rows, select.render db.dialect = .ok sql ∧
      db.connection.answer log sql = .ok rows ∧
      List.Forall₂ (fun row entity => schema.castRow row = .ok entity.fields ∧
        entity.model = schema.model ∧ Entity.Loaded db entity) rows entities := by
  obtain ⟨hsubject, sql, rows, hydrated, hsql, hrows, hhydrated, hrun⟩ := exists_of_run_load h
  exact ⟨hsubject, sql, rows, hsql, hrows, read_of_hydrateAll hfinish hhydrated hrun⟩

end Database

namespace Tie

variable {db : Database} {tie : Tie} {finish : Edit (List Entity) Unit}

/-- A fetch asks for nothing when no owner has a key.  Otherwise it sends one selection, and the
entities that its rows become are edited. -/
theorem cases_of_run_fetch {owners owners' fetched : List Entity} {log log' : Log}
    (h : tie.fetch db finish owners owners log = ⟨.ok fetched, owners', log'⟩) :
    owners' = owners ∧
      ((distinctValues owners tie.sourceKey = [] ∧ fetched = [] ∧ log' = log) ∨
        (distinctValues owners tie.sourceKey ≠ [] ∧ ∃ target sql rows hydrated,
          db.registry.schema tie.target = .ok target ∧
          (tie.fetchSelect target (distinctValues owners tie.sourceKey)).render db.dialect =
            .ok sql ∧
          db.connection.answer log sql = .ok rows ∧ target.hydrateAll rows = .ok hydrated ∧
          finish hydrated (log ++ [sql]) = ⟨.ok (), fetched, log'⟩)) := by
  unfold fetch at h
  obtain ⟨_, -, h⟩ := Edit.run_lift_bind h
  obtain ⟨_, -, h⟩ := Edit.run_lift_bind h
  dsimp only at h
  split at h
  next hempty =>
      obtain ⟨rfl, hsubject, rfl⟩ := Edit.run_pure h
      exact ⟨hsubject, .inl ⟨List.isEmpty_iff.mp hempty, rfl, rfl⟩⟩
  next hkeys =>
      obtain ⟨target, htarget, h⟩ := Edit.run_lift_bind h
      obtain ⟨hsubject, sql, rows, hydrated, hrun⟩ := Database.exists_of_run_load h
      rw [List.isEmpty_iff] at hkeys
      exact ⟨hsubject, .inr ⟨hkeys, target, sql, rows, hydrated, htarget, hrun⟩⟩

theorem exists_of_run_embed {owners owners' : List Entity} {log log' : Log}
    (h : tie.embed db finish owners log = ⟨.ok (), owners', log'⟩) :
    ∃ fetched, tie.fetch db finish owners owners log = ⟨.ok fetched, owners, log'⟩ ∧
      owners' = tie.attachAll fetched owners := by
  unfold Tie.embed at h
  obtain ⟨fetched, middle, sent, hfetch, hmodify⟩ := Edit.run_bind (Edit.run_subject_bind h)
  obtain ⟨rfl, -⟩ := cases_of_run_fetch hfetch
  cases hmodify
  exact ⟨fetched, hfetch, rfl⟩

theorem run_fetch {owners owners' fetched : List Entity} {log log' : Log}
    (hfinish : finish.Embeds db tie.target)
    (h : tie.fetch db finish owners owners log = ⟨.ok fetched, owners', log'⟩) :
    (∀ related ∈ fetched, related.model = tie.target ∧ related.Loaded db) ∧
      ∀ key target, (∃ value ∈ distinctValues owners tie.sourceKey, Value.key? value = some key) →
        db.registry.schema tie.target = .ok target → ∃ rows, tie.Fetches db target key rows ∧
          List.Forall₂ (fun row related => target.castRow row = .ok related.fields) rows
            fetched := by
  obtain ⟨-, ⟨hempty, rfl, -⟩ | ⟨-, schema, sql, rows, hydrated, hschema, hsql, hrows, hhydrated,
    hrun⟩⟩ := cases_of_run_fetch h
  · refine ⟨nofun, fun key target hvalue _ => ?_⟩
    obtain ⟨value, hvalue, -⟩ := hvalue
    rw [hempty] at hvalue
    cases hvalue
  · have hmodel : schema.model = tie.target := Registry.model_of_schema hschema
    rw [← hmodel] at hfinish
    have hread := Database.read_of_hydrateAll hfinish hhydrated hrun
    refine ⟨fun related hrelated => ?_, fun key target hvalue htarget => ?_⟩
    · obtain ⟨row, -, -, hrelatedModel, hloaded⟩ := exists_of_mem_right hread hrelated
      exact ⟨hrelatedModel.trans hmodel, hloaded⟩
    · cases hschema.symm.trans htarget
      exact ⟨rows, ⟨_, _, sql, hvalue, hsql, hrows⟩, hread.imp fun _ _ h => h.1⟩

theorem mem_relatedTo {fetched : List Entity} {owner related : Entity}
    (h : related ∈ tie.relatedTo fetched owner) : related ∈ fetched ∧ ∃ key,
      owner.fieldKey? tie.sourceKey = some key ∧ related.fieldKey? tie.targetKey = some key := by
  unfold relatedTo at h
  cases hkey : owner.fieldKey? tie.sourceKey with
  | none =>
      rw [hkey] at h
      cases h
  | some key =>
      rw [hkey] at h
      obtain ⟨hmem, hrelated⟩ := List.mem_filter.mp h
      exact ⟨hmem, key, rfl, beq_iff_eq.mp hrelated⟩

theorem attach_eq (tie : Tie) (fetched : List Entity) (owner : Entity) :
    ∃ related, tie.attach fetched owner = owner.setRelation tie.name related ∧
      (∀ found ∈ related.entities, found ∈ tie.relatedTo fetched owner) ∧
      (∀ collection, related = .many collection → tie.kind = .hasMany) ∧
      (tie.kind = .hasMany → related.entities = tie.relatedTo fetched owner) := by
  have hfirst : ∀ found ∈ (Related.one (tie.relatedTo fetched owner).head?).entities,
      found ∈ tie.relatedTo fetched owner := by
    intro found hfound
    cases hhead : (tie.relatedTo fetched owner).head? with
    | none =>
        rw [hhead] at hfound
        cases hfound
    | some first =>
        rw [hhead] at hfound
        rw [List.mem_singleton.mp hfound]
        exact List.mem_of_mem_head? hhead
  unfold attach
  cases tie.kind with
  | belongsTo | hasOne => exact ⟨_, rfl, hfirst, nofun, nofun⟩
  | hasMany => exact ⟨_, rfl, fun found hfound => hfound, fun _ _ => rfl, fun _ => rfl⟩

theorem leadsTo_eq {target : Schema} {key : Key} {row : Row} {related : Entity}
    (h : target.castRow row = .ok related.fields) :
    tie.leadsTo target key row = (related.fieldKey? tie.targetKey == some key) := by
  rw [leadsTo, h]
  rfl

/-- What is attached to one of the owners of a fetch was read from the rows that lead to it. -/
theorem loads_attach {owners fetched : List Entity} {owner : Entity} (howner : owner ∈ owners)
    (hmodels : ∀ related ∈ fetched, related.model = tie.target)
    (hread : ∀ key target, (∃ value ∈ distinctValues owners tie.sourceKey,
      Value.key? value = some key) → db.registry.schema tie.target = .ok target → ∃ rows,
        tie.Fetches db target key rows ∧
          List.Forall₂ (fun row related => target.castRow row = .ok related.fields) rows fetched) :
    tie.Loads db (tie.attach fetched owner) := by
  obtain ⟨related, hattach, hrelated, hshape, hmany⟩ := attach_eq tie fetched owner
  have hattached : (tie.attach fetched owner).attached tie.name = related.entities := by
    rw [hattach, Entity.attached_setRelation_self]
  refine ⟨fun found hfound => ?_, fun found hfound => ?_, fun collection hcollection => ?_,
    fun hkind _ key target hkey htarget => ?_⟩
  · rw [hattached] at hfound
    exact hmodels found (mem_relatedTo (hrelated found hfound)).1
  · rw [hattached] at hfound
    rw [hattach]
    exact (mem_relatedTo (hrelated found hfound)).2
  · rw [hattach, Entity.relation?_setRelation, if_pos rfl] at hcollection
    exact hshape collection (Option.some.inj hcollection)
  · rw [hattach] at hkey
    have hkeyOwner : owner.fieldKey? tie.sourceKey = some key := hkey
    obtain ⟨rows, hfetches, hrows⟩ :=
      hread key target (exists_distinctValue howner hkeyOwner) htarget
    have hsame : related.entities = entitiesWithKey fetched tie.targetKey key := by
      rw [hmany hkind, relatedTo, hkeyOwner]
    refine ⟨rows, hfetches, ?_⟩
    rw [hattached, hsame]
    exact List.rel_filter (fun _ _ hcast => Bool.eq_iff_iff.mp (leadsTo_eq hcast)) hrows

theorem embeds_embed {model : String}
    (htie : db.registry.relation model tie.name = .ok (.tie tie))
    (hfinish : finish.Embeds db tie.target) : (tie.embed db finish).Embeds db model := by
  intro owners log owners' log' h howners
  obtain ⟨fetched, hfetch, rfl⟩ := exists_of_run_embed h
  obtain ⟨hfetched, hread⟩ := run_fetch hfinish hfetch
  rw [attachAll_eq, List.forall₂_map_right_iff, List.forall₂_same]
  intro owner howner
  obtain ⟨rfl, hloaded⟩ := howners owner howner
  have hloads := loads_attach howner (fun related hrelated => (hfetched related hrelated).1) hread
  obtain ⟨related, hattach, hrelated, -⟩ := attach_eq tie fetched owner
  rw [hattach] at hloads ⊢
  refine ⟨rfl, rfl, Entity.loaded_setRelation hloaded ?_ ?_ ?_⟩
  · intro own correlate route far mode hmark
    cases hmark.symm.trans htie
  · intro other _ hother
    cases hother.symm.trans htie
    exact hloads
  · intro found hfound
    exact (hfetched found (mem_relatedTo (hrelated found hfound)).1).2

end Tie

/-! ## Trees -/

namespace Relation

variable {db : Database}

theorem embeds_embed {relation : Relation} {finish : Edit (List Entity) Unit} {model : String}
    (hrelation : db.registry.relation model relation.name = .ok relation)
    (hfinish : finish.Embeds db relation.target) :
    (relation.embed db finish).Embeds db model := by
  induction relation generalizing model with
  | tie t => exact Tie.embeds_embed hrelation hfinish
  | through name correlate route far mode ihFar =>
      obtain ⟨hroute, hfar⟩ := Registry.parts_of_relation hrelation
      refine Edit.embeds_bind (Tie.embeds_embed hroute (ihFar hfar hfinish)) ?_
      refine Edit.embeds_modify fun owner hmodel hloaded => ⟨rfl, hmodel, ?_⟩
      subst hmodel
      exact Entity.loaded_mark hloaded hrelation

end Relation

namespace Database

variable {db : Database}

theorem embeds_embed (tree : EmbedTree) (model : String) : (db.embed model tree).Embeds db model := by
  induction tree generalizing model with
  | nil => exact Edit.embeds_pure
  | cons name below rest ihBelow ihRest =>
      intro owners log owners' log' h howners
      obtain ⟨relation, hrelation, h⟩ := Edit.run_lift_bind h
      have hname : relation.name = name := Registry.name_of_relation hrelation
      rw [← hname] at hrelation
      exact Edit.embeds_bind (Relation.embeds_embed hrelation (ihBelow relation.target))
        (ihRest model) owners log owners' log' h howners

/-- What a query gives was read from rows, with all that is attached to it. -/
theorem loaded_of_run {σ : Type} {q : Query} {select : Select} {subject subject' : σ}
    {log log' : Log} {entities : List Entity}
    (h : (q.run db select : Edit σ (List Entity)) subject log = ⟨.ok entities, subject', log'⟩) :
    ∀ entity ∈ entities, entity.Loaded db := by
  obtain ⟨-, sql, rows, -, -, hread⟩ := run_load (embeds_embed q.tree q.schema.model) h
  intro entity hentity
  obtain ⟨row, -, -, -, hloaded⟩ := exists_of_mem_right hread hentity
  exact hloaded

end Database

end RecordMapper
