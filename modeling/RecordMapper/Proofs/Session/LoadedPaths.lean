import RecordMapper.Proofs.EmbedTree
import RecordMapper.Proofs.Session.Gallery
import RecordMapper.Proofs.Session.Outline

/-!
# Loaded paths

A path is loaded on an entity if its first relation is, and the rest of the path on every entity that
this relation leads to.  Relations that share a pivot write to one slot, and the last of them decides
what stands below.  The main theorem says which paths survive the others.
-/

namespace RecordMapper

namespace Relation

/-- The relation is loaded on an entity, and what it leads to has a property.  A route is loaded if
it is marked, its pivots are there, and the relation that leads on is loaded on each of them. -/
def LoadedOn (P : Entity → Prop) : Relation → Entity → Prop
  | tie t, entity => entity.hasData t.name = true ∧ ∀ related ∈ entity.attached t.name, P related
  | through name _ route far _, entity =>
      entity.isMarked name = true ∧ entity.hasData route.name = true ∧
        ∀ pivot ∈ entity.attached route.name, far.LoadedOn P pivot

/-- The slots that a relation writes. -/
def slots : Relation → List String
  | tie t => [t.name]
  | through name _ route _ _ => [name, route.name]

theorem name_mem_slots (relation : Relation) : relation.name ∈ relation.slots := by
  cases relation <;> simp [slots, name]

/-- Whether an outline has the slots of a relation, and what is written below has a property. -/
def loadedIn (p : Outline → Bool) : Relation → Outline → Bool
  | tie t, outline =>
      match outline.last? t.name with
      | some (.data below) => p below
      | _ => false
  | through name _ route far _, outline =>
      match outline.last? name, outline.last? route.name with
      | some .mark, some (.data below) => far.loadedIn p below
      | _, _ => false

end Relation

namespace Registry

/-- A path of relations is loaded on an entity of a model. -/
def LoadsPath (registry : Registry) : String → List String → Entity → Prop
  | _, [], _ => True
  | model, name :: names, entity => ∃ relation, registry.relation model name = .ok relation ∧
      relation.LoadedOn (registry.LoadsPath relation.target names) entity

def outlinesPath (registry : Registry) : String → List String → Outline → Bool
  | _, [], _ => true
  | model, name :: names, outline =>
      match registry.relation model name with
      | .ok relation =>
          relation.loadedIn (registry.outlinesPath relation.target names) outline
      | .error _ => false

/-- Whether a path outlives all relations that are embedded with it. -/
def keepsPath (registry : Registry) (model : String) (paths : List String) (path : String) : Bool :=
  registry.outlinesPath model (EmbedTree.pathNames path)
    (registry.outline model (.ofPaths paths) .nil)

/-- No two relations of one list in a tree write to one slot. -/
def Apart (registry : Registry) : String → EmbedTree → Prop
  | _, .nil => True
  | model, .cons name below rest =>
      (∃ relation, registry.relation model name = .ok relation ∧
        registry.Apart relation.target below ∧
        ∀ other ∈ rest.names, ∀ later, registry.relation model other = .ok later →
          relation.slots.Disjoint later.slots) ∧
      registry.Apart model rest

end Registry

/-- For every relation with data on the entity there is one of its entities, on which again there is
one for every relation. -/
inductive Entity.Populated : Entity → Prop
  | intro {entity : Entity} (some : String → Entity)
      (attached : ∀ name, entity.hasData name = true → some name ∈ entity.attached name)
      (below : ∀ name, entity.hasData name = true → (some name).Populated) : entity.Populated

namespace Relation

variable {before : String → Option Related} {outline : Outline} {entity : Entity}
  {P : Entity → Prop} {p : Outline → Bool}

theorem loadedOn_of_loadedIn {relation : Relation} (hentity : entity.Bears before outline)
    (hP : ∀ below related, Entity.Bears (fun _ => none) below related → p below = true → P related)
    (h : relation.loadedIn p outline = true) : relation.LoadedOn P entity := by
  induction relation generalizing before outline entity with
  | tie t =>
      obtain ⟨-, -, data, nested⟩ := hentity
      rw [loadedIn] at h
      split at h
      next below hlast =>
          exact ⟨data _ _ hlast, fun related hrelated => hP _ _ (nested _ _ hlast _ hrelated) h⟩
      next => cases h
  | through name correlate route far mode ih =>
      obtain ⟨-, marked, data, nested⟩ := hentity
      rw [loadedIn] at h
      split at h
      next below hmark hlast =>
          exact ⟨marked _ hmark, data _ _ hlast,
            fun pivot hpivot => ih (nested _ _ hlast _ hpivot) h⟩
      next => cases h

end Relation

namespace Entity

variable {before : String → Option Related} {outline : Outline} {entity : Entity} {name : String}

theorem last?_of_hasData (hentity : entity.Bears before outline)
    (hwritten : outline.last? name = none → before name = none) (h : entity.hasData name = true) :
    ∃ below, outline.last? name = some (.data below) := by
  obtain ⟨kept, marked, -, -⟩ := hentity
  cases hlast : outline.last? name with
  | none =>
      rw [hasData, kept name hlast, hwritten hlast] at h
      cases h
  | some write =>
      cases write with
      | mark => cases (hasData_of_isMarked (marked name hlast)).symm.trans h
      | data below => exact ⟨below, rfl⟩

theorem last?_of_isMarked (hentity : entity.Bears before outline)
    (hwritten : outline.last? name = none → before name = none) (h : entity.isMarked name = true) :
    outline.last? name = some .mark := by
  obtain ⟨kept, -, data, -⟩ := hentity
  cases hlast : outline.last? name with
  | none =>
      rw [isMarked, kept name hlast, hwritten hlast] at h
      cases h
  | some write =>
      cases write with
      | mark => rfl
      | data below => cases (hasData_of_isMarked h).symm.trans (data name below hlast)

end Entity

namespace Relation

variable {before : String → Option Related} {outline : Outline} {entity : Entity}
  {P : Entity → Prop} {p : Outline → Bool}

/-- On a populated entity nothing is loaded but what the outline says. -/
theorem loadedIn_of_loadedOn {relation : Relation} (hentity : entity.Bears before outline)
    (hwritten : ∀ slot ∈ relation.slots, outline.last? slot = none → before slot = none)
    (hpopulated : entity.Populated)
    (hP : ∀ below related, Entity.Bears (fun _ => none) below related → related.Populated →
      P related → p below = true)
    (h : relation.LoadedOn P entity) : relation.loadedIn p outline = true := by
  induction relation generalizing before outline entity with
  | tie t =>
      obtain ⟨hdata, hrelated⟩ := h
      obtain ⟨below, hlast⟩ :=
        Entity.last?_of_hasData hentity (hwritten _ (List.mem_singleton_self _)) hdata
      obtain ⟨-, -, -, nested⟩ := hentity
      obtain ⟨some, attached, populated⟩ := hpopulated
      have hmem := attached _ hdata
      rw [loadedIn, hlast]
      exact hP _ _ (nested _ _ hlast _ hmem) (populated _ hdata) (hrelated _ hmem)
  | through name correlate route far mode ih =>
      obtain ⟨hmark, hdata, hpivots⟩ := h
      have hlastMark :=
        Entity.last?_of_isMarked hentity (hwritten name (by simp [slots])) hmark
      obtain ⟨below, hlast⟩ :=
        Entity.last?_of_hasData hentity (hwritten route.name (by simp [slots])) hdata
      obtain ⟨-, -, -, nested⟩ := hentity
      obtain ⟨some, attached, populated⟩ := hpopulated
      have hmem := attached _ hdata
      rw [loadedIn, hlastMark, hlast]
      exact ih (nested _ _ hlast _ hmem) (fun _ _ _ => rfl) (populated _ hdata) (hpivots _ hmem)

end Relation

namespace Registry

variable {registry : Registry} {model : String} {names : List String}
  {before : String → Option Related} {outline : Outline} {entity : Entity}

theorem loadsPath_of_outlinesPath (hentity : entity.Bears before outline)
    (h : registry.outlinesPath model names outline = true) :
    registry.LoadsPath model names entity := by
  induction names generalizing model before outline entity with
  | nil => trivial
  | cons name names ih =>
      rw [outlinesPath] at h
      split at h
      next relation hrelation =>
          exact ⟨relation, hrelation, Relation.loadedOn_of_loadedIn hentity
            (fun _ _ hbears hbelow => ih hbears hbelow) h⟩
      next => cases h

theorem outlinesPath_of_loadsPath (hentity : entity.Bears before outline)
    (hwritten : ∀ name ∈ names.head?, ∀ relation, registry.relation model name = .ok relation →
      ∀ slot ∈ relation.slots, outline.last? slot = none → before slot = none)
    (hpopulated : entity.Populated) (h : registry.LoadsPath model names entity) :
    registry.outlinesPath model names outline = true := by
  induction names generalizing model before outline entity with
  | nil => rfl
  | cons name names ih =>
      obtain ⟨relation, hrelation, hloaded⟩ := h
      rw [outlinesPath, hrelation]
      refine Relation.loadedIn_of_loadedOn hentity (hwritten name rfl relation hrelation) hpopulated
        (fun below related hbears hrelated hpath => ?_) hloaded
      exact ih hbears (fun _ _ _ _ _ _ _ => rfl) hrelated hpath

/-! ## What stays of the relations of a tree -/

theorem last?_relation_outline {relation : Relation} {slot : String} (hslot : slot ∉ relation.slots)
    (below earlier : Outline) :
    (relation.outline below earlier).last? slot = earlier.last? slot := by
  cases relation with
  | tie t =>
      have hname : t.name ≠ slot := fun heq => hslot (by simp [Relation.slots, heq])
      simp [Relation.outline, Outline.last?, hname]
  | through name correlate route far mode =>
      have hname : name ≠ slot := fun heq => hslot (by simp [Relation.slots, heq])
      have hroute : route.name ≠ slot := fun heq => hslot (by simp [Relation.slots, heq])
      simp [Relation.outline, Outline.last?, hname, hroute]

theorem isSome_relation_outline {relation : Relation} {slot : String} (hslot : slot ∈ relation.slots)
    (below earlier : Outline) :
    ((relation.outline below earlier).last? slot).isSome = true := by
  cases relation with
  | tie t =>
      have hname : slot = t.name := by simpa [Relation.slots] using hslot
      simp [Relation.outline, Outline.last?, hname]
  | through name correlate route far mode =>
      by_cases hname : name = slot
      · simp [Relation.outline, Outline.last?, hname]
      · have hroute : route.name = slot := by
          simpa [Relation.slots, Ne.symm hname, eq_comm] using hslot
        simp [Relation.outline, Outline.last?, hname, hroute]

theorem isSome_last?_outline {slot : String} (tree : EmbedTree) {earlier : Outline}
    (h : (earlier.last? slot).isSome = true) :
    ((registry.outline model tree earlier).last? slot).isSome = true := by
  induction tree generalizing earlier with
  | nil => exact h
  | cons name below rest _ ih =>
      rw [Registry.outline]
      split
      next relation _ =>
          refine ih ?_
          by_cases hslot : slot ∈ relation.slots
          · exact isSome_relation_outline hslot _ _
          · rw [last?_relation_outline hslot]
            exact h
      next => exact ih h

theorem isSome_outline {tree : EmbedTree} {name slot : String} {relation : Relation}
    (hname : name ∈ tree.names) (hrelation : registry.relation model name = .ok relation)
    (hslot : slot ∈ relation.slots) (earlier : Outline) :
    ((registry.outline model tree earlier).last? slot).isSome = true := by
  induction tree generalizing earlier with
  | nil => cases hname
  | cons other below rest _ ih =>
      rw [Registry.outline]
      cases hname with
      | head =>
          rw [hrelation]
          exact isSome_last?_outline rest (isSome_relation_outline hslot _ _)
      | tail _ hname =>
          split
          next => exact ih hname _
          next => exact ih hname _

theorem last?_outline {tree : EmbedTree} {slot : String}
    (h : ∀ name ∈ tree.names, ∀ relation, registry.relation model name = .ok relation →
      slot ∉ relation.slots) (earlier : Outline) :
    (registry.outline model tree earlier).last? slot = earlier.last? slot := by
  induction tree generalizing earlier with
  | nil => rfl
  | cons name below rest _ ih =>
      have hrest := ih fun other hother => h other (List.mem_cons_of_mem name hother)
      rw [Registry.outline]
      split
      next relation hrelation =>
          rw [hrest, last?_relation_outline (h name List.mem_cons_self relation hrelation)]
      next => exact hrest earlier

theorem loadedIn_congr {relation : Relation} {p : Outline → Bool} {outline' : Outline}
    (h : ∀ slot ∈ relation.slots, outline'.last? slot = outline.last? slot) :
    relation.loadedIn p outline' = relation.loadedIn p outline := by
  cases relation with
  | tie t => rw [Relation.loadedIn, Relation.loadedIn, h t.name (by simp [Relation.slots])]
  | through name correlate route far mode =>
      rw [Relation.loadedIn, Relation.loadedIn, h name (by simp [Relation.slots]),
        h route.name (by simp [Relation.slots])]

theorem name_ne_of_through {name correlate : String} {route : Tie} {far : Relation}
    {mode : PivotMode}
    (h : registry.relation model name = .ok (.through name correlate route far mode)) :
    name ≠ route.name := by
  intro heq
  have hroute := (parts_of_relation h).1
  rw [← heq] at hroute
  cases h.symm.trans hroute

theorem loadedIn_outline {relation : Relation} {p : Outline → Bool} {below : Outline}
    (hrelation : registry.relation model relation.name = .ok relation) (h : p below = true)
    (earlier : Outline) : relation.loadedIn p (relation.outline below earlier) = true := by
  induction relation generalizing model earlier with
  | tie t => simpa [Relation.loadedIn, Relation.outline, Outline.last?] using h
  | through name correlate route far mode ih =>
      have hne : name ≠ route.name := name_ne_of_through hrelation
      have hfar := ih (parts_of_relation hrelation).2 .nil
      simpa [Relation.loadedIn, Relation.outline, Outline.last?, hne] using hfar

theorem outlinesPath_of_apart {tree : EmbedTree} (hapart : registry.Apart model tree)
    (hpath : tree.Has names) (earlier : Outline) :
    registry.outlinesPath model names (registry.outline model tree earlier) = true := by
  induction tree generalizing model names earlier with
  | nil =>
      cases names with
      | nil => rfl
      | cons name names =>
          obtain ⟨_, h, -⟩ := hpath
          cases h
  | cons first below rest ihbelow ihrest =>
      cases names with
      | nil => rfl
      | cons name names =>
          obtain ⟨⟨relation, hrelation, hbelow, hdisjoint⟩, hrest⟩ := hapart
          obtain ⟨found, hfound, hnames⟩ := hpath
          rw [Registry.outline, hrelation]
          rw [EmbedTree.get?] at hfound
          split at hfound
          next heq =>
              cases hfound
              subst heq
              have hname : relation.name = first := name_of_relation hrelation
              -- later relations write to other slots
              have hkept : ∀ slot ∈ relation.slots, ∀ written,
                  (registry.outline model rest written).last? slot = written.last? slot :=
                fun slot hslot => last?_outline fun other hother later hlater hmem =>
                  hdisjoint other hother later hlater hslot hmem
              rw [outlinesPath, hrelation]
              refine (loadedIn_congr fun slot hslot => hkept slot hslot _).trans ?_
              exact loadedIn_outline (hname.symm ▸ hrelation) (ihbelow hbelow hnames .nil) earlier
          next =>
              have hpath : rest.Has (name :: names) := ⟨found, hfound, hnames⟩
              exact ihrest hrest hpath _

end Registry

namespace Database

variable {db : Database} {model : String} {tree : EmbedTree} {owners owners' : List Entity}
  {log log' : Log}

theorem resolves_of_embed (h : db.embed model tree owners log = ⟨.ok (), owners', log'⟩) :
    ∀ name ∈ tree.names, ∃ relation, db.registry.relation model name = .ok relation := by
  induction tree generalizing owners log with
  | nil => nofun
  | cons first below rest _ ih =>
      obtain ⟨relation, hrelation, h⟩ := Edit.run_lift_bind h
      obtain ⟨_, middle, sent, -, hrest⟩ := Edit.run_bind h
      intro name hname
      cases hname with
      | head => exact ⟨relation, hrelation⟩
      | tail _ hname => exact ih hrest name hname

end Database

namespace Entity

theorem isLoaded_of_bears {before : String → Option Related} {outline : Outline} {entity : Entity}
    {name : String} (hentity : entity.Bears before outline)
    (h : (outline.last? name).isSome = true) : entity.isLoaded name = true := by
  obtain ⟨-, marked, data, -⟩ := hentity
  cases hlast : outline.last? name with
  | none =>
      rw [hlast] at h
      cases h
  | some write =>
      cases write with
      | mark => exact isLoaded_of_isMarked (marked name hlast)
      | data below => exact isLoaded_of_hasData (data name below hlast)

end Entity

open EmbedTree (pathNames ofPaths)

variable {db : Database} {model : String} {paths : List String} {owners owners' : List Entity}
  {log log' : Log}

/-- After a successful embedding of paths, the first relation of each path is loaded, and a path that
outlives the others is loaded down to its end on every owner.  One that does not is not loaded on any
populated owner.  All paths stay if no two relations write to one slot. -/
theorem embed_loads_paths
    (h : db.embed model (ofPaths paths) owners log = ⟨.ok (), owners', log'⟩) :
    (∀ path ∈ paths, ∀ owner' ∈ owners',
      (∀ name ∈ (pathNames path).head?, owner'.isLoaded name = true) ∧
      (db.registry.keepsPath model paths path = true →
        db.registry.LoadsPath model (pathNames path) owner') ∧
      (owner'.Populated → db.registry.LoadsPath model (pathNames path) owner' →
        db.registry.keepsPath model paths path = true)) ∧
    (db.registry.Apart model (ofPaths paths) →
      ∀ path ∈ paths, db.registry.keepsPath model paths path = true) := by
  refine ⟨fun path hpath owner' howner' => ?_, fun hapart path hpath =>
    Registry.outlinesPath_of_apart hapart (EmbedTree.has_ofPaths hpath) .nil⟩
  have hadds := db.adds_embed (ofPaths paths) model owners log owners' log' h
  obtain ⟨owner, -, howner⟩ := exists_of_mem_right hadds howner'
  have hbears := howner _ _ (Entity.bears_nil owner)
  -- the slots of the first relation of the path are among those written
  have hwritten : ∀ name ∈ (pathNames path).head?, ∀ relation,
      db.registry.relation model name = .ok relation → ∀ slot ∈ relation.slots,
        ((db.registry.outline model (ofPaths paths) .nil).last? slot).isSome = true := by
    intro name hname relation hrelation slot hslot
    have hmem := EmbedTree.mem_names_of_head? (EmbedTree.has_ofPaths hpath) hname
    exact Registry.isSome_outline hmem hrelation hslot .nil
  refine ⟨fun name hname => ?_, Registry.loadsPath_of_outlinesPath hbears,
    fun hpopulated => Registry.outlinesPath_of_loadsPath hbears ?_ hpopulated⟩
  · have hmem := EmbedTree.mem_names_of_head? (EmbedTree.has_ofPaths hpath) hname
    obtain ⟨relation, hrelation⟩ := Database.resolves_of_embed h name hmem
    have hslot : name ∈ relation.slots := Registry.name_of_relation hrelation ▸ relation.name_mem_slots
    exact Entity.isLoaded_of_bears hbears (hwritten name hname relation hrelation name hslot)
  · intro name hname relation hrelation slot hslot hnone
    have hsome := hwritten name hname relation hrelation slot hslot
    rw [hnone] at hsome
    cases hsome

namespace Gallery

def plainImage : Entity :=
  .hydrated "Image" (.ofPairs [("id", .integer 1)])

def taggedOnce : Database :=
  ⟨answeringEach [("SELECT * FROM \"images_tags\" WHERE \"image_id\" IN (1)", [pivotRow 1 2]),
    ("SELECT * FROM \"tag\" WHERE \"id\" IN (2)", [.ofPairs [("id", .integer 2)]])], registry⟩

def imageOver (pivots : List Entity) : Entity :=
  (plainImage.setRelation "images_tags" (.many ⟨"ImageTag", pivots⟩)).setRelation "tags" .through

def fetchedPivot : Entity :=
  .hydrated "ImageTag" (pivotRow 1 2)

def fetchedTagged : Entity :=
  fetchedPivot.setRelation "tag" (.one (some (.hydrated "Tag" (.ofPairs [("id", .integer 2)]))))

theorem ofPaths_pivots_tags :
    ofPaths ["images_tags", "tags"] = .cons "images_tags" .nil (.cons "tags" .nil .nil) := by
  decide +kernel

theorem ofPaths_tags_pivots :
    ofPaths ["tags", "images_tags"] = .cons "tags" .nil (.cons "images_tags" .nil .nil) := by
  decide +kernel

theorem pathNames_tags : pathNames "tags" = ["tags"] := by
  decide +kernel

theorem keepsPath_tags : registry.keepsPath "Image" ["images_tags", "tags"] "tags" = true := by
  rw [Registry.keepsPath, ofPaths_pivots_tags, pathNames_tags]
  rfl

end Gallery

open Gallery in
/-- Pivots that are embedded before the tags are replaced by pivots with tags. -/
theorem embed_pivots_then_tags : ∃ log',
    taggedOnce.embed "Image" (ofPaths ["images_tags", "tags"]) [plainImage] [] =
      ⟨.ok (), [imageOver [fetchedTagged]], log'⟩ ∧
    registry.LoadsPath "Image" (pathNames "tags") (imageOver [fetchedTagged]) := by
  have h : taggedOnce.embed "Image" (ofPaths ["images_tags", "tags"]) [plainImage] [] =
      ⟨.ok (), [imageOver [fetchedTagged]],
        ["SELECT * FROM \"images_tags\" WHERE \"image_id\" IN (1)",
          "SELECT * FROM \"images_tags\" WHERE \"image_id\" IN (1)",
          "SELECT * FROM \"tag\" WHERE \"id\" IN (2)"]⟩ := by
    rw [ofPaths_pivots_tags]
    rfl
  obtain ⟨hpaths, -⟩ := embed_loads_paths h
  have hloaded := hpaths "tags" (by simp) (imageOver [fetchedTagged]) (List.mem_singleton_self _)
  exact ⟨_, h, hloaded.2.1 keepsPath_tags⟩

open Gallery in
/-- Pivots that are embedded after the tags take them away. -/
theorem embed_tags_then_pivots :
    ¬ ∀ (db : Database) (model : String) (paths : List String) (owners owners' : List Entity)
        (log log' : Log), db.embed model (ofPaths paths) owners log = ⟨.ok (), owners', log'⟩ →
      ∀ path ∈ paths, ∀ owner' ∈ owners', db.registry.LoadsPath model (pathNames path) owner' := by
  intro hall
  have hrun : taggedOnce.embed "Image" (ofPaths ["tags", "images_tags"]) [plainImage] [] =
      ⟨.ok (), [(imageOver [fetchedTagged]).setRelation "images_tags"
        (.many ⟨"ImageTag", [fetchedPivot]⟩)],
        ["SELECT * FROM \"images_tags\" WHERE \"image_id\" IN (1)",
          "SELECT * FROM \"tag\" WHERE \"id\" IN (2)",
          "SELECT * FROM \"images_tags\" WHERE \"image_id\" IN (1)"]⟩ := by
    rw [ofPaths_tags_pivots]
    rfl
  have hloads := hall _ _ _ _ _ _ _ hrun "tags" (by simp) _ (List.mem_singleton_self _)
  rw [pathNames_tags] at hloads
  obtain ⟨relation, hrelation, hloaded⟩ := hloads
  cases hrelation
  have htag := (hloaded.2.2 fetchedPivot (List.mem_singleton_self _)).1
  cases htag

end RecordMapper
