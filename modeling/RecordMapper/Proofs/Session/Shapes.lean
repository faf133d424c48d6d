import RecordMapper.Proofs.Session.FarEntities
import RecordMapper.Proofs.Statement.Failures

/-!
# Shapes of attached data

A relation attaches a single entity, a collection, or the mark of a route.  Embedding leaves every slot
with data of the shape that the relation of its name calls for, and never meets another shape.
-/

namespace RecordMapper

/-! ## Edits that respect shapes -/

namespace Edit

variable {σ τ α β : Type} {before : σ → Prop}

/-- From a subject that meets `before`, the edit leads to one that meets `after`, unless it fails;
and then it does not fail over the shape of a relation. -/
def Safe (before : σ → Prop) (edit : Edit σ α) (after : α → σ → Prop) : Prop :=
  ∀ subject log, before subject → ShapeSafe (edit subject log).result ∧
    ∀ a, (edit subject log).result = .ok a → after a (edit subject log).subject

theorem safe_pure {after : α → σ → Prop} {a : α} (h : ∀ s, before s → after a s) :
    (pure a : Edit σ α).Safe before after := by
  intro s log hs
  refine ⟨FailsAs.ok a, ?_⟩
  rintro _ ⟨⟩
  exact h s hs

theorem safe_bind {middle : α → σ → Prop} {after : β → σ → Prop} {edit : Edit σ α}
    {next : α → Edit σ β} (hedit : edit.Safe before middle)
    (hnext : ∀ a, (next a).Safe (middle a) after) : (edit >>= next).Safe before after := by
  intro s log hs
  obtain ⟨hresult, hmiddle⟩ := hedit s log hs
  rw [bind_apply]
  cases hrun : (edit s log).result with
  | error error =>
      rw [hrun] at hresult
      exact ⟨FailsAs.of_error hresult, nofun⟩
  | ok a => exact hnext a _ _ (hmiddle a hrun)

theorem safe_lift_bind {after : β → σ → Prop} {attempt : Attempt α} {next : α → Edit σ β}
    (h : ShapeSafe attempt) (hnext : ∀ a, attempt = .ok a → (next a).Safe before after) :
    ((liftM attempt : Edit σ α) >>= next).Safe before after := by
  cases attempt with
  | error error =>
      intro s log _
      exact ⟨FailsAs.of_error h, nofun⟩
  | ok a => exact hnext a rfl

theorem safe_lift {attempt : Attempt α} (h : ShapeSafe attempt) :
    (liftM attempt : Edit σ α).Safe before fun _ => before :=
  fun _ _ hs => ⟨h, fun _ _ => hs⟩

theorem safe_subject_bind {after : β → σ → Prop} {next : σ → Edit σ β}
    (hnext : ∀ s, before s → (next s).Safe before after) :
    (Edit.subject >>= next).Safe before after :=
  fun s log hs => hnext s hs s log hs

theorem safe_modify {after : Unit → σ → Prop} {change : σ → σ}
    (h : ∀ s, before s → after () (change s)) : (modify change).Safe before after :=
  fun s _ hs => ⟨FailsAs.ok (), fun _ _ => h s hs⟩

theorem safe_modify_bind {middle : σ → Prop} {after : β → σ → Prop} {change : σ → σ}
    {next : Unit → Edit σ β} (h : ∀ s, before s → middle (change s))
    (hnext : (next ()).Safe middle after) : (modify change >>= next).Safe before after :=
  fun s log hs => hnext (change s) log (h s hs)

theorem safe_map {after : β → σ → Prop} {edit : Edit σ α} {f : α → β}
    (h : edit.Safe before fun a s => after (f a) s) : (f <$> edit).Safe before after := by
  rw [← bind_pure_comp]
  exact safe_bind h fun a => safe_pure fun s hs => hs

theorem safe_applyTo {value : τ} {edit : Edit τ Unit} {inner : τ → Prop} {after : τ → Prop}
    (hvalue : inner value) (h : edit.Safe inner fun _ => after) :
    (applyTo value edit : Edit σ τ).Safe before fun t s => after t ∧ before s := by
  intro s log hs
  obtain ⟨hresult, hafter⟩ := h value log hvalue
  rw [applyTo_apply]
  cases hrun : (edit value log).result with
  | error error =>
      rw [hrun] at hresult
      exact ⟨FailsAs.of_error hresult, nofun⟩
  | ok a =>
      refine ⟨FailsAs.ok _, ?_⟩
      rintro _ ⟨⟩
      exact ⟨hafter a hrun, hs⟩

end Edit

namespace Database

variable {σ β : Type} {before : σ → Prop}

theorem safe_send (db : Database) (sql : String) :
    (db.send sql : Edit σ (List Row)).Safe before fun _ => before := by
  intro s log hs
  rw [send_apply]
  cases db.connection.answer log sql with
  | error report => exact ⟨FailsAs.error_iff.mpr rfl, nofun⟩
  | ok rows => exact ⟨FailsAs.ok rows, fun _ _ => hs⟩

theorem safe_execute (db : Database) {text : Attempt String} (h : Writes text) :
    (db.execute text : Edit σ (List Row)).Safe before fun _ => before :=
  Edit.safe_lift_bind (shapeSafe_of_writes h) fun sql _ => db.safe_send sql

end Database

/-! ## Shapes -/

namespace Related

/-- The data have the shape that a relation calls for. -/
def Suits : Related → Relation → Prop
  | .one _, .tie tie => tie.kind ≠ .hasMany
  | .many _, .tie tie => tie.kind = .hasMany
  | .through, .through _ _ _ _ _ => True
  | _, _ => False

end Related

/-- Every slot of an entity holds data of the shape and of the model that the relation of its name
calls for, and so does every slot of the entities in it. -/
inductive Entity.Shaped (registry : Registry) : Entity → Prop
  | intro {entity : Entity}
      (slots : ∀ name related, entity.relation? name = some related → ∃ relation,
        registry.relation entity.model name = .ok relation ∧ related.Suits relation ∧
          ∀ found ∈ related.entities, found.model = relation.target)
      (below : ∀ name, ∀ found ∈ entity.attached name, found.Shaped registry) :
      entity.Shaped registry

/-- The entity is of a model, and its slots have the shapes of the relations of that model. -/
structure Registry.Shapes (registry : Registry) (model : String) (entity : Entity) : Prop where
  model : entity.model = model
  shaped : entity.Shaped registry

namespace Registry

variable {registry : Registry} {model name : String} {entity : Entity}

theorem shapes_hydrated (registry : Registry) (model : String) (row : Row) :
    registry.Shapes model (.hydrated model row) :=
  ⟨rfl, .intro nofun nofun⟩

theorem Shapes.of_relations {entity' : Entity} (h : registry.Shapes model entity)
    (hmodel : entity'.model = entity.model) (hrelations : entity'.relations = entity.relations) :
    registry.Shapes model entity' := by
  obtain ⟨hentity, slots, below⟩ := h
  refine ⟨hmodel.trans hentity, .intro (fun name related hrelated => ?_) (fun name found hfound => ?_)⟩
  · rw [Entity.relation?_of_relations hrelations] at hrelated
    rw [hmodel]
    exact slots name related hrelated
  · rw [Entity.attached_of_relations hrelations] at hfound
    exact below name found hfound

theorem Shapes.slot {related : Related} {relation : Relation} (h : registry.Shapes model entity)
    (hrelation : registry.relation model name = .ok relation)
    (hrelated : entity.relation? name = some related) :
    related.Suits relation ∧ ∀ found ∈ related.entities, registry.Shapes relation.target found := by
  obtain ⟨rfl, slots, below⟩ := h
  obtain ⟨_, hresolved, hsuits, hmodels⟩ := slots name related hrelated
  cases hresolved.symm.trans hrelation
  refine ⟨hsuits, fun found hfound => ⟨hmodels found hfound, below name found ?_⟩⟩
  rwa [Entity.attached_of_relation? hrelated]

theorem Shapes.setRelation {related : Related} {relation : Relation}
    (h : registry.Shapes model entity) (hrelation : registry.relation model name = .ok relation)
    (hsuits : related.Suits relation)
    (hfound : ∀ found ∈ related.entities, registry.Shapes relation.target found) :
    registry.Shapes model (entity.setRelation name related) := by
  obtain ⟨rfl, slots, below⟩ := h
  refine ⟨rfl, .intro (fun other held hheld => ?_) (fun other found hmem => ?_)⟩
  · rw [Entity.relation?_setRelation] at hheld
    by_cases hname : other = name
    · rw [if_pos hname] at hheld
      cases hheld
      exact ⟨relation, hname ▸ hrelation, hsuits, fun found hmem => (hfound found hmem).model⟩
    · rw [if_neg hname] at hheld
      exact slots other held hheld
  · rw [Entity.attached_setRelation] at hmem
    by_cases hname : other = name
    · rw [if_pos hname] at hmem
      exact (hfound found hmem).shaped
    · rw [if_neg hname] at hmem
      exact below other found hmem

end Registry

/-! ## Embedding -/

namespace Tie

variable {db : Database} {tie : Tie} {finish : Edit (List Entity) Unit}

theorem exists_of_attach (tie : Tie) (fetched : List Entity) (owner : Entity) :
    ∃ related, tie.attach fetched owner = owner.setRelation tie.name related ∧
      related.Suits (.tie tie) ∧ ∀ found ∈ related.entities, found ∈ fetched := by
  obtain ⟨related, hattach, hrelated, -⟩ := attach_eq tie fetched owner
  have hslot := congrArg (fun entity : Entity => entity.relation? tie.name) hattach
  have hsuits : related.Suits (.tie tie) := by
    cases hkind : tie.kind with
    | belongsTo | hasOne =>
        simp only [attach, hkind, Entity.relation?_setRelation, if_true, Option.some.injEq] at hslot
        rw [← hslot]
        exact fun hmany => by cases hkind.symm.trans hmany
    | hasMany =>
        simp only [attach, hkind, Entity.relation?_setRelation, if_true, Option.some.injEq] at hslot
        rw [← hslot]
        exact hkind
  exact ⟨related, hattach, hsuits, fun found hfound => (mem_relatedTo (hrelated found hfound)).1⟩

theorem shapes_attach {model : String} {owner : Entity} {fetched : List Entity}
    (htie : db.registry.relation model tie.name = .ok (.tie tie))
    (howner : db.registry.Shapes model owner)
    (hfetched : ∀ found ∈ fetched, db.registry.Shapes tie.target found) :
    db.registry.Shapes model (tie.attach fetched owner) := by
  obtain ⟨related, hattach, hsuits, hrelated⟩ := exists_of_attach tie fetched owner
  rw [hattach]
  exact howner.setRelation htie hsuits fun found hfound => hfetched found (hrelated found hfound)

end Tie

namespace Database

variable {σ : Type} {db : Database} {before : σ → Prop}

abbrev EmbedsSafely (db : Database) (model : String) (edit : Edit (List Entity) Unit) : Prop :=
  edit.Safe (∀ owner ∈ ·, db.registry.Shapes model owner)
    fun _ owners => ∀ owner ∈ owners, db.registry.Shapes model owner

theorem shapeSafe_checkKey (db : Database) (model key relation : String) :
    ShapeSafe (db.checkKey model key relation) := by
  unfold checkKey
  refine FailsAs.bind_iff.mpr ⟨db.registry.shapeSafe_schema model, fun schema _ => ?_⟩
  split
  · exact FailsAs.error_iff.mpr rfl
  · exact FailsAs.ok ()

theorem shapes_of_hydrateAll {schema : Schema} {rows : List Row} {entities : List Entity}
    (h : schema.hydrateAll rows = .ok entities) :
    ∀ entity ∈ entities, db.registry.Shapes schema.model entity := by
  intro entity hentity
  obtain ⟨row, -, hrow⟩ := exists_of_mem_right (attempt_mapM_eq_ok.mp h) hentity
  obtain ⟨cast, -, hrow⟩ := attempt_bind_eq_ok.mp hrow
  cases hrow
  exact Registry.shapes_hydrated db.registry schema.model cast

theorem safe_load {schema : Schema} {finish : Edit (List Entity) Unit} (select : Select)
    (hfinish : db.EmbedsSafely schema.model finish) :
    (db.load schema select finish : Edit σ (List Entity)).Safe before fun entities s =>
      (∀ entity ∈ entities, db.registry.Shapes schema.model entity) ∧ before s := by
  unfold load
  refine Edit.safe_bind (db.safe_execute (Select.writes_render db.dialect select)) fun rows => ?_
  have hrows : ShapeSafe (schema.hydrateAll rows) := by
    refine FailsAs.mapM fun row _ => ?_
    simp [Schema.hydrate, schema.shapeSafe_castRow row]
  refine Edit.safe_lift_bind hrows fun entities hentities => ?_
  exact Edit.safe_applyTo (shapes_of_hydrateAll hentities) hfinish

end Database

namespace Tie

variable {db : Database} {tie : Tie} {finish : Edit (List Entity) Unit} {model : String}

theorem safe_fetch {before : List Entity → Prop} (owners : List Entity)
    (hfinish : db.EmbedsSafely tie.target finish) :
    (tie.fetch db finish owners).Safe before fun fetched s =>
      (∀ found ∈ fetched, db.registry.Shapes tie.target found) ∧ before s := by
  unfold fetch
  refine Edit.safe_lift_bind (db.shapeSafe_checkKey _ _ _) fun _ _ => ?_
  refine Edit.safe_lift_bind (db.shapeSafe_checkKey _ _ _) fun _ _ => ?_
  dsimp only
  split
  · exact Edit.safe_pure fun s hs => ⟨nofun, hs⟩
  · refine Edit.safe_lift_bind (db.registry.shapeSafe_schema tie.target) fun target htarget => ?_
    have hmodel : target.model = tie.target := Registry.model_of_schema htarget
    rw [← hmodel] at hfinish ⊢
    exact Database.safe_load _ hfinish

theorem safe_embed (htie : db.registry.relation model tie.name = .ok (.tie tie))
    (hfinish : db.EmbedsSafely tie.target finish) : db.EmbedsSafely model (tie.embed db finish) := by
  unfold Tie.embed
  refine Edit.safe_subject_bind fun owners _ => ?_
  refine Edit.safe_bind (safe_fetch owners hfinish) fun fetched => ?_
  refine Edit.safe_modify ?_
  rintro current ⟨hfetched, hcurrent⟩
  rw [attachAll_eq, List.forall_mem_map]
  exact fun owner howner => shapes_attach htie (hcurrent owner howner) hfetched

end Tie

theorem Relation.safe_embed {db : Database} {relation : Relation} {finish : Edit (List Entity) Unit}
    {model : String} (hrelation : db.registry.relation model relation.name = .ok relation)
    (hfinish : db.EmbedsSafely relation.target finish) :
    db.EmbedsSafely model (relation.embed db finish) := by
  induction relation generalizing model with
  | tie t => exact Tie.safe_embed hrelation hfinish
  | through name correlate route far mode ihFar =>
      obtain ⟨hroute, hfar⟩ := Registry.parts_of_relation hrelation
      refine Edit.safe_bind (Tie.safe_embed hroute (ihFar hfar hfinish)) fun _ => ?_
      refine Edit.safe_modify fun owners howners => ?_
      rw [List.forall_mem_map]
      exact fun owner howner => (howners owner howner).setRelation hrelation trivial nofun

/-- Embedding leaves the right shapes in all slots, and never meets another one. -/
theorem Database.safe_embed (db : Database) (tree : EmbedTree) (model : String) :
    db.EmbedsSafely model (db.embed model tree) := by
  induction tree generalizing model with
  | nil => exact Edit.safe_pure fun owners howners => howners
  | cons name below rest ihBelow ihRest =>
      refine Edit.safe_lift_bind (db.registry.shapeSafe_relation model name)
        fun relation hrelation => ?_
      have hname : relation.name = name := Registry.name_of_relation hrelation
      refine Edit.safe_bind (Relation.safe_embed ?_ (ihBelow relation.target)) fun _ => ihRest model
      rw [hname]
      exact hrelation

end RecordMapper
