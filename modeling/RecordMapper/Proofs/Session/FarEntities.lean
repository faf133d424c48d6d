import RecordMapper.Entity.ThroughView
import RecordMapper.Proofs.Session.Batching
import RecordMapper.Proofs.Session.LoadedPaths
import RecordMapper.Proofs.Session.SelectionCount

/-!
# Far entities in the order of their pivots

A route is embedded with two selections, one for the pivots of all owners and one for the far entities
of all pivots, and both are handed out by keys.  For each owner this comes to a walk over its own
pivots, in the order of their rows, that looks up the far entity of each of them.
-/

namespace RecordMapper

namespace Tie

/-- The far entities of an owner, one for each of its pivots that has any. -/
def farEntities (route far : Tie) (pivots fars : List Entity) (owner : Entity) : List Entity :=
  (pivots.filter (route.relates owner)).filterMap fun pivot => fars.find? (far.relates pivot)

@[simp] theorem relates_setRelation (tie : Tie) (owner entity : Entity) (name : String)
    (related : Related) :
    tie.relates owner (entity.setRelation name related) = tie.relates owner entity :=
  rfl

@[simp] theorem setRelation_relates (tie : Tie) (owner : Entity) (name : String)
    (related : Related) : tie.relates (owner.setRelation name related) = tie.relates owner :=
  rfl

end Tie

namespace Entity

/-- A relation through a pivot lists the far entities of an owner: when it is read, and as a view. -/
structure Lists (owner : Entity) (relation : Relation) (fars : List Entity) : Prop where
  entities : owner.throughEntities relation = .ok fars
  view : ∃ view, (owner.openThrough relation).2 = .ok view ∧ view.toList = fars

theorem lists_of_pivots {owner : Entity} {name : String} (correlate : String) {route : Tie}
    {far : Relation} (mode : PivotMode) {collection : Collection} (far? : Entity → Option Entity)
    (hname : name ≠ route.name)
    (hpivots : owner.relation? route.name = some (.many collection))
    (hfar : ∀ pivot ∈ collection.entities, pivot.relation? far.name = some (.one (far? pivot))) :
    owner.Lists (.through name correlate route far mode) (collection.entities.filterMap far?) := by
  have hloaded : owner.isLoaded route.name = true := isLoaded_of_relation? hpivots
  have hfarOf : ∀ pivot ∈ collection.entities, pivot.far? far.name = far? pivot := by
    intro pivot hpivot
    rw [Entity.far?, hfar pivot hpivot]
  constructor
  case entities =>
    have hones : collection.entities.mapM (fun pivot => pivot.one far.name) =
        .ok (collection.entities.map far?) := by
      rw [attempt_mapM_eq_ok, List.forall₂_map_right_iff, List.forall₂_same]
      exact fun pivot hpivot => one_of_relation? (hfar pivot hpivot)
    simp only [throughEntities, hloaded, Bool.not_true, Bool.and_false, Bool.false_eq_true,
      if_false, many_of_relation? hpivots]
    refine attempt_bind_eq_ok.mpr ⟨collection, rfl, attempt_bind_eq_ok.mpr ⟨_, hones, ?_⟩⟩
    rw [List.filterMap_map]
    rfl
  case view =>
    have hmarked : (owner.setRelation name .through).many route.name = .ok collection := by
      refine many_of_relation? ?_
      rw [relation?_setRelation, if_neg (Ne.symm hname), hpivots]
    simp only [openThrough, hloaded, Bool.not_true, Bool.false_and, Bool.false_eq_true, if_false,
      if_true, hmarked]
    refine ⟨_, rfl, ?_⟩
    simp only [ThroughView.toList, ThroughView.slots, List.filterMap_map]
    exact List.filterMap_congr hfarOf

end Entity

namespace Database

variable {db : Database} {model name correlate : String} {below : EmbedTree} {route far : Tie}
  {mode : PivotMode} {owners owners' : List Entity} {log log' : Log}

theorem run_embed_single {relation : Relation}
    (hrelation : db.registry.relation model name = .ok relation)
    (h : db.embed model (.cons name below .nil) owners log = ⟨.ok (), owners', log'⟩) :
    relation.embed db (db.embed relation.target below) owners log = ⟨.ok (), owners', log'⟩ := by
  rw [Database.embed] at h
  obtain ⟨found, hfound, h⟩ := Edit.run_lift_bind h
  cases hfound.symm.trans hrelation
  obtain ⟨_, middle, sent, hrun, hnil⟩ := Edit.run_bind h
  obtain ⟨-, rfl, rfl⟩ := Edit.run_pure hnil
  exact hrun

/-- Pivots are fetched for the owners, and far entities for these pivots as they were read. -/
theorem fetched_of_run_through
    (hrelation : db.registry.relation model name =
      .ok (.through name correlate route (.tie far) mode)) (hfar : far.kind ≠ .hasMany)
    (h : db.embed model (.cons name below .nil) owners log = ⟨.ok (), owners', log'⟩) :
    ∃ pivots fars middle fetched, far.Fetched db below pivots middle fars log' ∧
      route.Fetched db (.cons far.name below .nil) owners log fetched log' ∧
      fetched = (pivots.map fun pivot =>
        pivot.setRelation far.name (.one (fars.find? (far.relates pivot)))) ∧
      owners' = (route.attachAll fetched owners).map fun owner =>
        owner.setRelation name .through := by
  have hrun := run_embed_single hrelation h
  rw [Relation.target, Registry.embed_through hrelation] at hrun
  obtain ⟨_, attached, sent, hroute, hmark⟩ := Edit.run_bind hrun
  cases hmark
  obtain ⟨fetched, hfetch, rfl⟩ := Tie.exists_of_run_embed hroute
  have hfetched := Tie.fetched_of_run hfetch
  refine (?_ : ∃ pivots fars middle, far.Fetched db below pivots middle fars log' ∧
    fetched = pivots.map fun pivot =>
      pivot.setRelation far.name (.one (fars.find? (far.relates pivot)))).elim ?_
  · cases hfetched with
    | nothing keyless => exact ⟨[], [], log, .nothing (List.forall_mem_nil _), rfl⟩
    | selected _ _ _ _ _ _ nested _ =>
        have hparts := (Registry.parts_of_relation hrelation).2
        obtain ⟨fars, hfars, rfl⟩ := Tie.exists_of_run_embed (run_embed_single hparts nested)
        exact ⟨_, fars, _, Tie.fetched_of_run hfars, Tie.attachAll_of_ne_hasMany hfar fars _⟩
  · rintro pivots ⟨fars, middle, hfars, heq⟩
    exact ⟨pivots, fars, middle, fetched, hfars, hfetched, heq, rfl⟩

/-- Every owner lists the far entities of its own pivots: in the order in which the pivots were
fetched, for each pivot the first far entity with its key, and none for a pivot without any. -/
theorem embed_lists_far_entities
    (hrelation : db.registry.relation model name =
      .ok (.through name correlate route (.tie far) mode))
    (hroute : route.kind = .hasMany) (hfar : far.kind ≠ .hasMany)
    (h : db.embed model (.cons name below .nil) owners log = ⟨.ok (), owners', log'⟩) :
    ∃ pivots fars middle fetched, route.Fetched db (.cons far.name below .nil) owners log fetched log' ∧
      fetched = (pivots.map fun pivot =>
        pivot.setRelation far.name (.one (fars.find? (far.relates pivot)))) ∧
      far.Fetched db below pivots middle fars log' ∧
      List.Forall₂ (fun owner owner' =>
        Entity.Lists owner' (.through name correlate route (.tie far) mode)
          (route.farEntities far pivots fars owner)) owners owners' := by
  obtain ⟨pivots, fars, middle, fetched, hfars, hfetched, heq, rfl⟩ :=
    fetched_of_run_through hrelation hfar h
  refine ⟨pivots, fars, middle, fetched, hfetched, heq, hfars, ?_⟩
  subst heq
  rw [Tie.attachAll_of_hasMany hroute, List.map_map, List.forall₂_map_right_iff,
    List.forall₂_same]
  intro owner _
  have hname : name ≠ route.name := Registry.name_ne_of_through hrelation
  let attached : Collection := ⟨route.target, (pivots.map fun pivot => pivot.setRelation far.name
    (.one (fars.find? (far.relates pivot)))).filter (route.relates owner)⟩
  -- Marking the relation through the pivots leaves the pivots where they are.
  have hpivots : ((owner.setRelation route.name (.many attached)).setRelation name
      .through).relation? route.name = some (.many attached) := by
    simp [Ne.symm hname]
  have hslots : ∀ pivot ∈ attached.entities, pivot.relation? (Relation.tie far).name =
      some (.one (fars.find? (far.relates pivot))) := by
    intro pivot hpivot
    obtain ⟨read, -, rfl⟩ := List.mem_map.mp (List.mem_filter.mp hpivot).1
    simp [Relation.name]
  have hlists := Entity.lists_of_pivots correlate mode
    (fun pivot => fars.find? (far.relates pivot)) hname hpivots hslots
  have hfars : attached.entities.filterMap (fun pivot => fars.find? (far.relates pivot)) =
      route.farEntities far pivots fars owner := by
    simp [attached, Tie.farEntities, List.filter_map, List.filterMap_map, Function.comp_def]
  rw [← hfars]
  exact hlists

end Database

namespace Gallery

def tagOfPivot : Tie :=
  { kind := .belongsTo, source := "ImageTag", target := "Tag", name := "tag"
    correlate := "image_tag", sourceKey := "tag_id", targetKey := "id", fields := []
    constraints := .always }

def tagsOfImage : Relation :=
  .through "tags" "image" (pivots "ImageTag" "images_tags") (.tie tagOfPivot) .diff

/-- The first image has one tag twice, and in between a pivot to a tag that is not there. -/
def taggedTwice : Database :=
  ⟨answeringEach [("SELECT * FROM \"images_tags\" WHERE \"image_id\" IN (1)",
      [pivotRow 1 2, pivotRow 2 5, pivotRow 3 2]),
    ("SELECT * FROM \"tag\" WHERE \"id\" IN (2, 5)", [.ofPairs [("id", .integer 2)]])], registry⟩

def secondTag : Entity :=
  .hydrated "Tag" (.ofPairs [("id", .integer 2)])

end Gallery

open Gallery in
/-- A tag that two pivots share is listed twice. -/
theorem embed_lists_shared_tag : ∃ image' log',
    taggedTwice.embed "Image" (.cons "tags" .nil .nil) [plainImage] [] = ⟨.ok (), [image'], log'⟩ ∧
      image'.throughEntities tagsOfImage = .ok [secondTag, secondTag] ∧
      ∃ pivots' fars, image'.Lists tagsOfImage
        ((pivots "ImageTag" "images_tags").farEntities tagOfPivot pivots' fars plainImage) := by
  have h : taggedTwice.embed "Image" (.cons "tags" .nil .nil) [plainImage] [] =
      ⟨.ok (), (taggedTwice.embed "Image" (.cons "tags" .nil .nil) [plainImage] []).subject,
        (taggedTwice.embed "Image" (.cons "tags" .nil .nil) [plainImage] []).log⟩ := by rfl
  obtain ⟨pivots', fars, -, -, -, -, -, hlists⟩ :=
    Database.embed_lists_far_entities (by rfl) (by decide) (by decide) h
  cases hlists with
  | cons hfirst hnone =>
      cases hnone
      exact ⟨_, _, h, by rfl, pivots', fars, hfirst⟩

end RecordMapper
