import RecordMapper.Proofs.Session.ReadableRoutes

/-!
# Routes that can be used

A registry resolves a route over every relation to the pivot that is no `belongsTo`, and over any
relation on from there.  Reading the far entities, opening a view and saving look for a collection of
pivots with a single far entity each.  `through_usable_iff` says which of them fail over the shape of
what an embedding has attached.
-/

namespace RecordMapper

open Edit

namespace Entity

/-- The pivots of an owner can be read: they are a collection, and each of them leads to a single far
entity, unless there are none. -/
def ReadsRoute (owner : Entity) (route : Tie) (far : Relation) : Prop :=
  route.kind = .hasMany ∧ (far.isMany = true → owner.attached route.name = [])

/-- What an embedding of a route leaves on an owner: a mark, and on the slot of the relation to the
pivot data of its shape, with something in the slot of the far relation of every pivot. -/
structure Routed (registry : Registry) (name : String) (route : Tie) (far : Relation)
    (owner : Entity) : Prop where
  mark : owner.isLoaded name = true
  slot : ∃ pivots, owner.relation? route.name = some pivots ∧ pivots.Suits (.tie route)
  pivots : ∀ pivot ∈ owner.attached route.name,
    registry.Shapes route.target pivot ∧ pivot.isLoaded far.name = true

end Entity

/-! ## What an embedding leaves -/

theorem Relation.isLoaded_of_embed {db : Database} {relation : Relation}
    {finish : Edit (List Entity) Unit} {owners owners' : List Entity} {log log' : Log}
    (h : relation.embed db finish owners log = ⟨.ok (), owners', log'⟩) :
    ∀ owner ∈ owners', owner.isLoaded relation.name = true := by
  have hset : ∀ (owner : Entity) related,
      (owner.setRelation relation.name related).isLoaded relation.name = true :=
    fun owner related => by simp [Entity.isLoaded]
  cases relation with
  | tie tie =>
      obtain ⟨fetched, -, rfl⟩ := Tie.exists_of_run_embed h
      rw [Tie.attachAll_eq, List.forall_mem_map]
      exact fun owner _ => hset owner _
  | through name correlate route far mode =>
      obtain ⟨_, attached, sent, -, hmark⟩ := run_bind h
      cases hmark
      rw [List.forall_mem_map]
      exact fun owner _ => hset owner _

namespace Database

variable {db : Database} {model name correlate : String} {below : EmbedTree} {route : Tie}
  {far : Relation} {mode : PivotMode} {owners owners' : List Entity} {log log' : Log}

theorem routed_of_embed
    (hrelation : db.registry.relation model name = .ok (.through name correlate route far mode))
    (h : db.embed model (.cons name below .nil) owners log = ⟨.ok (), owners', log'⟩) :
    ∀ owner' ∈ owners', owner'.Routed db.registry name route far ∧
      ∃ owner ∈ owners, owner'.model = owner.model := by
  have hname : name ≠ route.name := Registry.name_ne_of_through hrelation
  have hfar := (Registry.parts_of_relation hrelation).2
  have hrun := run_embed_single hrelation h
  rw [Relation.target, Registry.embed_through hrelation] at hrun
  obtain ⟨_, attached, sent, hroute, hmark⟩ := run_bind hrun
  cases hmark
  obtain ⟨fetched, hfetch, rfl⟩ := Tie.exists_of_run_embed hroute
  -- the pivots are as the embedding of the far relation has left them
  have hpivots : ∀ pivot ∈ fetched,
      db.registry.Shapes route.target pivot ∧ pivot.isLoaded far.name = true := by
    have hsafe : Edit.Safe (fun _ => True) _ _ := Tie.safe_fetch owners
      (db.safe_embed (.cons far.name below .nil) route.target)
    have hshapes := ((hsafe owners log trivial).2 fetched (by rw [hfetch])).1
    obtain ⟨-, ⟨-, rfl, -⟩ | ⟨-, target, sql, rows, hydrated, -, -, -, -, hfinish⟩⟩ :=
      Tie.cases_of_run_fetch hfetch
    · exact List.forall_mem_nil _
    · have hloaded := Relation.isLoaded_of_embed (run_embed_single hfar hfinish)
      exact fun pivot hpivot => ⟨hshapes pivot hpivot, hloaded pivot hpivot⟩
  simp only [Tie.attachAll_eq, List.map_map, List.forall_mem_map, Function.comp_apply]
  intro owner howner
  obtain ⟨pivots, hattach, hsuits, hmem⟩ := Tie.exists_of_attach route fetched owner
  rw [hattach]
  refine ⟨⟨?_, ⟨pivots, ?_, hsuits⟩, fun pivot hpivot => ?_⟩, owner, howner, rfl⟩
  · simp [Entity.isLoaded]
  · simp [Ne.symm hname]
  · rw [Entity.attached_setRelation, if_neg (Ne.symm hname), Entity.attached_setRelation_self]
      at hpivot
    exact hpivots pivot (hmem pivot hpivot)

end Database

/-! ## Reading -/

namespace Entity

variable {registry : Registry} {name correlate : String} {route : Tie} {far : Relation}
  {mode : PivotMode} {owner pivot : Entity}

theorem exists_many_of_routed (h : owner.Routed registry name route far)
    (hkind : route.kind = .hasMany) :
    ∃ collection, owner.many route.name = .ok collection ∧
      collection.entities = owner.attached route.name := by
  obtain ⟨pivots, hslot, hsuits⟩ := h.slot
  obtain ⟨collection, rfl⟩ := Related.exists_many_of_suits hsuits hkind
  exact ⟨collection, many_of_relation? hslot, (attached_of_relation? hslot).symm⟩

theorem many_of_kind_ne {entity : Entity} {pivots : Related}
    (hslot : entity.relation? route.name = some pivots) (hsuits : pivots.Suits (.tie route))
    (hkind : route.kind ≠ .hasMany) :
    entity.many route.name = .error (.relationShape entity.model route.name "collection") := by
  rw [many, relation, hslot]
  cases pivots with
  | one found => rfl
  | many collection => exact absurd hsuits hkind
  | through => rfl

theorem shapeSafe_one_iff (hfar : registry.relation route.target far.name = .ok far)
    (hpivot : registry.Shapes route.target pivot) (hloaded : pivot.isLoaded far.name = true) :
    ShapeSafe (pivot.one far.name) ↔ far.isMany = false := by
  obtain ⟨related, hrelated⟩ := Option.isSome_iff_exists.mp hloaded
  obtain ⟨hsuits, -⟩ := hpivot.slot hfar hrelated
  constructor
  · intro hsafe
    rw [one, relation, hrelated] at hsafe
    cases related with
    | one found =>
        cases far with
        | tie tie => exact beq_eq_false_iff_ne.mpr hsuits
        | through _ _ _ _ _ => exact hsuits.elim
    | many _ | through => exact absurd hsafe (not_shapeSafe _ _ _)
  · intro hsingle
    refine shapeSafe_one fun held hheld => ?_
    exact Related.exists_one_of_suits (hpivot.slot hfar hheld).1 hsingle

theorem many_of_routed_of_kind_ne (h : owner.Routed registry name route far)
    (hkind : route.kind ≠ .hasMany) : ¬ ShapeSafe (owner.many route.name) := by
  obtain ⟨pivots, hslot, hsuits⟩ := h.slot
  intro hsafe
  rw [many_of_kind_ne hslot hsuits hkind] at hsafe
  exact not_shapeSafe _ _ _ hsafe

theorem shapeSafe_mapM_one_iff (hfar : registry.relation route.target far.name = .ok far)
    {pivots : List Entity} (hpivots : ∀ pivot ∈ pivots,
      registry.Shapes route.target pivot ∧ pivot.isLoaded far.name = true) :
    ShapeSafe (pivots.mapM fun pivot => pivot.one far.name) ↔
      (far.isMany = true → pivots = []) := by
  have hone : ∀ pivot ∈ pivots, ShapeSafe (pivot.one far.name) ↔ far.isMany = false :=
    fun pivot hpivot => shapeSafe_one_iff hfar (hpivots pivot hpivot).1 (hpivots pivot hpivot).2
  constructor
  · intro hsafe hmany
    cases pivots with
    | nil => rfl
    | cons first rest =>
        rw [List.mapM_cons] at hsafe
        have hsingle := (hone first List.mem_cons_self).mp (FailsAs.bind_iff.mp hsafe).1
        rw [hmany] at hsingle
        cases hsingle
  · intro hnone
    refine FailsAs.mapM fun pivot hpivot => (hone pivot hpivot).mpr ?_
    rw [Bool.eq_false_iff]
    intro hmany
    rw [hnone hmany] at hpivot
    cases hpivot

theorem shapeSafe_throughEntities_iff (hfar : registry.relation route.target far.name = .ok far)
    (h : owner.Routed registry name route far) :
    ShapeSafe (owner.throughEntities (.through name correlate route far mode)) ↔
      owner.ReadsRoute route far := by
  have hread : owner.throughEntities (.through name correlate route far mode) = (do
      let pivots ← owner.many route.name
      let found ← pivots.entities.mapM fun pivot => pivot.one far.name
      return found.filterMap id) := by
    rw [throughEntities, h.mark]
    rfl
  rw [hread, ReadsRoute]
  by_cases hkind : route.kind = .hasMany
  · obtain ⟨collection, hmany, hpivots⟩ := exists_many_of_routed h hkind
    have hiff := shapeSafe_mapM_one_iff hfar (hpivots ▸ h.pivots)
    rw [hpivots] at hiff
    rw [hmany]
    simpa [hkind, hpivots] using hiff
  · refine iff_of_false (fun hsafe => ?_) fun hreads => hkind hreads.1
    exact many_of_routed_of_kind_ne h hkind (FailsAs.bind_iff.mp hsafe).1

theorem shapeSafe_openThrough_iff (hname : name ≠ route.name)
    (h : owner.Routed registry name route far) :
    ShapeSafe (owner.openThrough (.through name correlate route far mode)).2 ↔
      route.kind = .hasMany := by
  obtain ⟨pivots, hslot, hsuits⟩ := h.slot
  have hloaded : owner.isLoaded route.name = true := isLoaded_of_relation? hslot
  have hmarked : (owner.setRelation name .through).relation? route.name = some pivots := by
    rw [relation?_setRelation, if_neg (Ne.symm hname), hslot]
  simp only [openThrough, hloaded, Bool.not_true, Bool.false_and, Bool.false_eq_true, if_false,
    if_true]
  by_cases hkind : route.kind = .hasMany
  · obtain ⟨collection, rfl⟩ := Related.exists_many_of_suits hsuits hkind
    rw [many_of_relation? hmarked]
    exact iff_of_true (FailsAs.ok _) hkind
  · rw [many_of_kind_ne hmarked hsuits hkind]
    exact iff_of_false (not_shapeSafe _ _ _) hkind

end Entity

/-! ## Saving -/

namespace Edit

variable {σ τ α β : Type}

/-- An edit that does not fail over shapes does not do so in its first step. -/
theorem shapeSafe_of_bind {edit : Edit σ α} {next : α → Edit σ β} {s : σ} {log : Log}
    (h : ShapeSafe ((edit >>= next) s log).result) : ShapeSafe (edit s log).result := by
  rw [bind_apply] at h
  cases hrun : (edit s log).result with
  | ok a => exact FailsAs.ok a
  | error error =>
      rw [hrun] at h
      exact FailsAs.of_error h

theorem shapeSafe_of_onOne {name : String} {edit : Edit Entity α} {owner : Entity} {log : Log}
    (h : ShapeSafe (onOne name edit owner log).result) : ShapeSafe (owner.one name) := by
  unfold onOne at h
  rw [subject_bind_apply] at h
  exact shapeSafe_of_bind h

theorem shapeSafe_of_onMany {name : String} {edit : Edit (List Entity) α} {owner : Entity}
    {log : Log} (h : ShapeSafe (onMany name edit owner log).result) :
    ShapeSafe (owner.many name) ∧ ∀ collection, owner.many name = .ok collection →
      ShapeSafe (edit collection.entities log).result := by
  unfold onMany at h
  rw [subject_bind_apply] at h
  refine ⟨shapeSafe_of_bind h, fun collection hmany => ?_⟩
  rw [hmany] at h
  exact h

theorem shapeSafe_of_forEach {edit : Edit τ α} {item : τ} {rest : List τ} {log : Log}
    (h : ShapeSafe (forEach edit (item :: rest) log).result) :
    ShapeSafe (edit item log).result := by
  rcases hrun : edit item log with ⟨result, item', sent⟩
  rw [forEach, hrun] at h
  cases result with
  | ok a => exact FailsAs.ok a
  | error error => exact FailsAs.of_error h

end Edit

namespace Entity

theorem routed_of_relations {registry : Registry} {name : String} {route : Tie} {far : Relation}
    {owner owner' : Entity} (h : owner.Routed registry name route far)
    (hrelations : owner'.relations = owner.relations) : owner'.Routed registry name route far := by
  obtain ⟨mark, slot, pivots⟩ := h
  refine ⟨?_, ?_, ?_⟩
  · rw [isLoaded, relation?_of_relations hrelations]
    exact mark
  · rw [relation?_of_relations hrelations]
    exact slot
  · rw [attached_of_relations hrelations]
    exact pivots

end Entity

theorem Relation.readsRoute_of_saveThrough {db : Database} {name : String} {route : Tie}
    {far : Relation} {mode : PivotMode} {save : Edit Entity Unit} {owner : Entity} {log : Log}
    {key : Value} {pivot : Schema} (hfar : db.registry.relation route.target far.name = .ok far)
    (hpivot : db.registry.schema route.target = .ok pivot)
    (howner : owner.Routed db.registry name route far)
    (hkey : owner.requireKey route.sourceKey route.source route.name = .ok key)
    (hsafe : ShapeSafe (saveThrough db route far mode save owner log).result) :
    owner.ReadsRoute route far := by
  obtain ⟨pivots, hslot, -⟩ := howner.slot
  have hloaded : owner.isLoaded route.name = true := Entity.isLoaded_of_relation? hslot
  have hmatch : ∃ owned, (Relation.tie route).matchCondition owner = .ok owned := by
    simp only [matchCondition, sourceKey, source, Relation.name, hkey]
    exact ⟨_, rfl⟩
  obtain ⟨owned, howned⟩ := hmatch
  unfold saveThrough at hsafe
  rw [subject_bind_apply, if_pos hloaded, hkey, lift_ok_bind, hpivot, lift_ok_bind, howned,
    lift_ok_bind] at hsafe
  obtain ⟨hmany, hedit⟩ := shapeSafe_of_onMany hsafe
  have hkind : route.kind = .hasMany := by
    by_contra hne
    exact Entity.many_of_routed_of_kind_ne howner hne hmany
  refine ⟨hkind, fun hfarMany => ?_⟩
  obtain ⟨collection, hcollection, hentities⟩ := Entity.exists_many_of_routed howner hkind
  have hprepared := shapeSafe_of_bind (hedit collection hcollection)
  rw [hentities] at hprepared
  cases hattached : owner.attached route.name with
  | nil => rfl
  | cons first rest =>
      rw [hattached] at hprepared
      obtain ⟨hshapes, hfirst⟩ := howner.pivots first (hattached ▸ List.mem_cons_self)
      have hstep := shapeSafe_of_forEach hprepared
      unfold preparePivot at hstep
      rw [subject_bind_apply, if_pos hfirst] at hstep
      have hone := shapeSafe_of_onOne (shapeSafe_of_bind hstep)
      rw [(Entity.shapeSafe_one_iff hfar hshapes hfirst).mp hone] at hfarMany
      cases hfarMany

namespace Database

variable {db : Database} {model name correlate : String} {tree : EmbedTree} {route : Tie}
  {far : Relation} {mode : PivotMode} {owner : Entity} {log : Log}

/-- The saving of an owner with a route comes as far as its pivots: the owner is written, and has the
key that the pivots need. -/
def ReachesPivots (db : Database) (route : Tie) (owner : Entity) (log : Log) : Prop :=
  ∃ written sent key, db.persist owner log = ⟨.ok (), written, sent⟩ ∧
    written.requireKey route.sourceKey route.source route.name = .ok key

theorem save_route (hmodel : owner.model = model)
    (hrelation : db.registry.relation model name = .ok (.through name correlate route far mode)) :
    db.save (.cons name tree .nil) owner log = (db.persist >>= fun _ =>
      (Relation.through name correlate route far mode).save db (db.save tree)) owner log := by
  have hbranches : db.branches (.cons name tree .nil) owner.model =
      .ok [⟨.through name correlate route far mode, db.save tree⟩] :=
    branches_cons.mpr ⟨_, [], hmodel ▸ hrelation, rfl, rfl⟩
  unfold save saveWith
  rw [subject_bind_apply, hbranches, lift_ok_bind]
  simp only [Branch.comesFirst, Relation.isBelongsTo, List.filter_cons, List.filter_nil,
    List.map_nil, List.map_cons, inOrder_nil, inOrder_cons, Bool.not_false, Bool.false_eq_true,
    if_false, if_true, pure_bind, bind_pure_unit]
  rfl

theorem save_through {save : Edit Entity Unit} (h : owner.isLoaded name = true) :
    (Relation.through name correlate route far mode).save db save owner log =
      Relation.saveThrough db route far mode save owner log := by
  have hmark : owner.isLoaded (Relation.through name correlate route far mode).name = true := h
  unfold Relation.save
  rw [subject_bind_apply, if_pos hmark]

/-- The slots of an owner that a route reads hold what it looks for. -/
theorem safe_save_of_readsRoute
    (hrelation : db.registry.relation model name = .ok (.through name correlate route far mode))
    (howner : owner.Routed db.registry name route far) (hmodel : owner.model = model)
    (hreads : owner.ReadsRoute route far) (htree : db.registry.ReadsTree tree far.target) :
    ShapeSafe (db.save (.cons name tree .nil) owner log).result := by
  have hfar := (Registry.parts_of_relation hrelation).2
  obtain ⟨pivots, hslot, hsuits⟩ := howner.slot
  rw [save_route hmodel hrelation]
  -- without pivots nothing is asked of them; otherwise they have the shapes of their model
  obtain ⟨inner, hpivots, hinner, hprepare⟩ : ∃ inner : Entity → Prop,
      (∀ pivot ∈ owner.attached route.name, inner pivot) ∧ IgnoresValues inner ∧
        ∀ ownerKey, (preparePivot route far ownerKey (db.save tree)).Safe inner fun _ => inner := by
    cases hmany : far.isMany with
    | true =>
        refine ⟨fun _ => False, ?_, fun _ _ _ _ h => h, fun _ _ _ h => h.elim⟩
        rw [hreads.2 hmany]
        exact nofun
    | false =>
        refine ⟨_, fun pivot hpivot => (howner.pivots pivot hpivot).1,
          db.registry.ignoresValues_shapes route.target, fun ownerKey => ?_⟩
        exact safe_preparePivot hfar hmany ownerKey (safe_save tree htree)
  have hfits : owner.SlotFits (.tie route) inner := by
    intro related hrelated
    cases hslot.symm.trans hrelated
    rw [Entity.attached_of_relation? hslot] at hpivots
    exact ⟨hsuits, hpivots⟩
  have hsave : ((Relation.through name correlate route far mode).save db (db.save tree)).Safe
      (fun entity => entity.SlotFits (.tie route) inner)
      fun _ entity => entity.SlotFits (.tie route) inner := by
    refine safe_subject_bind fun entity _ => ?_
    split
    · exact Relation.safe_saveThrough mode (carries_slotFits _ inner) hreads.1 hinner hprepare
    · exact safe_pure fun s hs => hs
  have hpersist := db.safe_persist (ignoresValues_slotFits (.tie route) inner)
  exact (safe_bind hpersist (fun _ => hsave) owner log hfits).1

theorem readsRoute_of_safe_save
    (hrelation : db.registry.relation model name = .ok (.through name correlate route far mode))
    (howner : owner.Routed db.registry name route far) (hmodel : owner.model = model)
    (hreaches : db.ReachesPivots route owner log)
    (hsafe : ShapeSafe (db.save (.cons name tree .nil) owner log).result) :
    owner.ReadsRoute route far := by
  obtain ⟨written, sent, key, hpersist, hkey⟩ := hreaches
  obtain ⟨hroute, hfar⟩ := Registry.parts_of_relation hrelation
  obtain ⟨pivot, hpivot⟩ : ∃ pivot, db.registry.schema route.target = .ok pivot := by
    rcases Registry.resolve_cases hroute with ⟨_, heq, -, -, hpivot⟩ | ⟨_, _, _, _, _, _, heq, -⟩
    · cases heq
      exact hpivot
    · cases heq
  have hrelations : written.relations = owner.relations := (run_persist hpersist).relations
  have hwritten := Entity.routed_of_relations howner hrelations
  rw [save_route hmodel hrelation, bind_apply, hpersist] at hsafe
  dsimp only at hsafe
  rw [save_through hwritten.mark] at hsafe
  have hreads := Relation.readsRoute_of_saveThrough hfar hpivot hwritten hkey hsafe
  unfold Entity.ReadsRoute at hreads ⊢
  rwa [Entity.attached_of_relations hrelations] at hreads

/-- A save that does not come as far as the pivots fails to write the owner, or lacks its key. -/
theorem safe_save_of_not_reachesPivots
    (hrelation : db.registry.relation model name = .ok (.through name correlate route far mode))
    (howner : owner.Routed db.registry name route far) (hmodel : owner.model = model)
    (hreaches : ¬ db.ReachesPivots route owner log) :
    ShapeSafe (db.save (.cons name tree .nil) owner log).result := by
  have hwrites : db.persist.Safe (fun _ => True) fun _ _ => True :=
    db.safe_persist fun _ _ _ _ h => h
  have hsafe := (hwrites owner log trivial).1
  rcases hpersist : db.persist owner log with ⟨result, written, sent⟩
  rw [save_route hmodel hrelation, bind_apply]
  rw [hpersist] at hsafe ⊢
  cases result with
  | error error => exact hsafe
  | ok _ =>
      have hwritten := Entity.routed_of_relations howner (run_persist hpersist).relations
      obtain ⟨pivots, hslot, -⟩ := hwritten.slot
      have hloaded : written.isLoaded route.name = true := Entity.isLoaded_of_relation? hslot
      dsimp only
      rw [save_through hwritten.mark]
      unfold Relation.saveThrough
      rw [subject_bind_apply, if_pos hloaded]
      cases hkey : written.requireKey route.sourceKey route.source route.name with
      | ok key => exact absurd ⟨written, sent, key, hpersist, hkey⟩ hreaches
      | error error =>
          have herror := written.shapeSafe_requireKey route.sourceKey route.source route.name
          rw [hkey] at herror
          exact FailsAs.of_error herror

/-- What becomes of a route that the registry resolves, after it was embedded on some owners.  Its
relation to the pivot may be to one or to many.  A view opens over many and fails over the shape of
one.  The far entities are read without such a failure if and only if the pivots are a collection and
each of them leads to a single far entity, and so is an owner saved, if its save comes as far as the
pivots. -/
theorem through_usable_iff
    (hrelation : db.registry.relation model name = .ok (.through name correlate route far mode))
    {below : EmbedTree} {owners owners' : List Entity} {log' : Log}
    (howners : ∀ owner ∈ owners, owner.model = model)
    (h : db.embed model (.cons name below .nil) owners log = ⟨.ok (), owners', log'⟩) :
    (route.kind = .hasMany ∨ route.kind = .hasOne) ∧ ∀ owner ∈ owners',
      (ShapeSafe (owner.openThrough (.through name correlate route far mode)).2 ↔
        route.kind = .hasMany) ∧
      (ShapeSafe (owner.throughEntities (.through name correlate route far mode)) ↔
        owner.ReadsRoute route far) ∧
      ∀ tree sent, db.registry.ReadsTree tree far.target →
        (ShapeSafe (db.save (.cons name tree .nil) owner sent).result ↔
          (db.ReachesPivots route owner sent → owner.ReadsRoute route far)) := by
  have hkind : route.kind = .hasMany ∨ route.kind = .hasOne := by
    have hne := Registry.kind_of_through hrelation
    cases hroute : route.kind with
    | belongsTo => exact absurd hroute hne
    | hasOne => exact .inr rfl
    | hasMany => exact .inl rfl
  refine ⟨hkind, fun owner howner => ?_⟩
  have hname : name ≠ route.name := Registry.name_ne_of_through hrelation
  have hfar := (Registry.parts_of_relation hrelation).2
  obtain ⟨hrouted, before, hbefore, hmodel⟩ := routed_of_embed hrelation h owner howner
  replace hmodel := hmodel.trans (howners before hbefore)
  refine ⟨Entity.shapeSafe_openThrough_iff hname hrouted,
    Entity.shapeSafe_throughEntities_iff hfar hrouted, fun tree sent htree => ?_⟩
  constructor
  · exact fun hsafe hreaches =>
      readsRoute_of_safe_save hrelation hrouted hmodel hreaches hsafe
  · intro hreads
    by_cases hreaches : db.ReachesPivots route owner sent
    · exact safe_save_of_readsRoute hrelation hrouted hmodel (hreads hreaches) htree
    · exact safe_save_of_not_reachesPivots hrelation hrouted hmodel hreaches

end Database

namespace Gallery

/-- Images with one pivot as their cover, and with all of their pivots. -/
def covered : Schema :=
  model "Image" "image" [serial "id", integer "gallery_id", string "title"]
    [⟨"cover", .tie .hasOne { target := "ImageTag", keys := some ("id", "image_id") }⟩,
     route "cover_tags" "cover" "tag",
     hasMany "images_tags" "ImageTag" ("id", "image_id") [],
     route "tag_labels" "images_tags" "labels"]

/-- Pivots that know the labels of their tag. -/
def labelled : Schema :=
  model "ImageTag" "images_tags" [serial "id", integer "image_id", integer "tag_id"]
    [belongsTo "tag" "Tag" ("tag_id", "id"), hasMany "labels" "Label" ("tag_id", "tag_id") []]

def coveredOnce : Database :=
  ⟨answeringEach [("SELECT * FROM \"images_tags\" WHERE \"image_id\" IN (1)", [pivotRow 1 2]),
    ("SELECT * FROM \"tag\" WHERE \"id\" IN (2)", [.ofPairs [("id", .integer 2)]])],
    ⟨.standard, [covered, labelled, label, tag]⟩⟩

def coverTags : Relation :=
  .through "cover_tags" "image" { pivots "ImageTag" "cover" with kind := .hasOne } (.tie tagOfPivot)
    .diff

def tagLabels : Relation :=
  .through "tag_labels" "image" (pivots "ImageTag" "images_tags")
    (.tie { kind := .hasMany, source := "ImageTag", target := "Label", name := "labels"
            correlate := "image_tag", sourceKey := "tag_id", targetKey := "tag_id", fields := []
            constraints := .always }) .diff

end Gallery

open Gallery in
/-- The tags of an image are read, viewed and saved over its pivots. -/
theorem tags_are_usable : ∃ image' log',
    taggedOnce.embed "Image" (.cons "tags" .nil .nil) [plainImage] [] = ⟨.ok (), [image'], log'⟩ ∧
      ShapeSafe (image'.openThrough tagsOfImage).2 ∧
      ShapeSafe (image'.throughEntities tagsOfImage) ∧
      ∀ sent, ShapeSafe (taggedOnce.save (.cons "tags" .nil .nil) image' sent).result := by
  have h : taggedOnce.embed "Image" (.cons "tags" .nil .nil) [plainImage] [] =
      ⟨.ok (), [imageOver [fetchedTagged]],
        ["SELECT * FROM \"images_tags\" WHERE \"image_id\" IN (1)",
          "SELECT * FROM \"tag\" WHERE \"id\" IN (2)"]⟩ := by
    rfl
  obtain ⟨-, husable⟩ :=
    Database.through_usable_iff (by rfl) (by simp [plainImage, Entity.hydrated]) h
  obtain ⟨hview, hfars, hsave⟩ := husable _ (List.mem_singleton_self _)
  have hreads : (imageOver [fetchedTagged]).ReadsRoute (pivots "ImageTag" "images_tags")
      (.tie tagOfPivot) := ⟨rfl, nofun⟩
  exact ⟨_, _, h, hview.mpr rfl, hfars.mpr hreads,
    fun sent => (hsave .nil sent trivial).mpr fun _ => hreads⟩

open Gallery in
/-- The registry resolves a route over a single pivot, and one that leads on to many far entities.
Both are embedded with success, and then their far entities can neither be read nor saved; over the
single pivot no view opens either. -/
theorem routes_are_unusable :
    (coveredOnce.registry.relation "Image" "cover_tags" = .ok coverTags ∧
      ∃ image' log', coveredOnce.embed "Image" (.cons "cover_tags" .nil .nil) [plainImage] [] =
          ⟨.ok (), [image'], log'⟩ ∧
        image'.throughEntities coverTags =
          .error (.relationShape "Image" "cover" "collection") ∧
        (image'.openThrough coverTags).2 =
          .error (.relationShape "Image" "cover" "collection") ∧
        (coveredOnce.save (.cons "cover_tags" .nil .nil) image' log').result =
          .error (.relationShape "Image" "cover" "collection")) ∧
    coveredOnce.registry.relation "Image" "tag_labels" = .ok tagLabels ∧
      ∃ image' log', coveredOnce.embed "Image" (.cons "tag_labels" .nil .nil) [plainImage] [] =
          ⟨.ok (), [image'], log'⟩ ∧
        image'.throughEntities tagLabels =
          .error (.relationShape "ImageTag" "labels" "single entity") ∧
        (coveredOnce.save (.cons "tag_labels" .nil .nil) image' log').result =
          .error (.relationShape "ImageTag" "labels" "single entity") := by
  have hcover : coveredOnce.embed "Image" (.cons "cover_tags" .nil .nil) [plainImage] [] =
      ⟨.ok (), (coveredOnce.embed "Image" (.cons "cover_tags" .nil .nil) [plainImage] []).subject,
        (coveredOnce.embed "Image" (.cons "cover_tags" .nil .nil) [plainImage] []).log⟩ := by rfl
  have hlabels : coveredOnce.embed "Image" (.cons "tag_labels" .nil .nil) [plainImage] [] =
      ⟨.ok (), (coveredOnce.embed "Image" (.cons "tag_labels" .nil .nil) [plainImage] []).subject,
        (coveredOnce.embed "Image" (.cons "tag_labels" .nil .nil) [plainImage] []).log⟩ := by rfl
  exact ⟨⟨by rfl, _, _, hcover, by rfl, by rfl, by rfl⟩, by rfl, _, _, hlabels, by rfl, by rfl⟩

end RecordMapper
