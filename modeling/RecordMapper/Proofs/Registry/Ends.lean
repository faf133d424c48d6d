import RecordMapper.Proofs.Registry.Circles
import RecordMapper.Proofs.Session.Gallery

/-!
# The ends of relations

Keys that a tie leaves open follow from the model that is belonged to: from its own key and from the foreign
key that is named for it (`hasKeys_of_relation`).  So a tie and one that leads back to it have the same two
fields.  A route ends where the relation of its pivot ends, and with the keys of that relation.  Both
together are `relation_ends_meet`.
-/

namespace RecordMapper

/-- The model of the pivot that a relation leads through. -/
def Relation.pivot? : Relation → Option String
  | .tie _ => none
  | .through _ _ route _ _ => some route.target

namespace Registry

variable {registry : Registry} {model name target own foreign : String} {kind : TieKind}

theorem resolved_of_declares {options : RelationOptions} {relation : Relation}
    (h : registry.Declares model name options)
    (hrelation : registry.relation model name = .ok relation) :
    ∃ owner correlate, registry.schema model = .ok owner ∧
      match options with
      | .tie kind options => ∃ tie, registry.resolveTie owner name correlate kind options =
          .ok tie ∧ relation = .tie tie
      | .route options => ∃ way far, registry.relation model options.through = .ok (.tie way) ∧
          registry.relation way.target options.far = .ok far ∧
          relation = .through name correlate way far options.mode := by
  obtain ⟨schema, decl, hschema, hdecl, rfl⟩ := h
  obtain ⟨owner, decl', correlate, howner, hdecl', -, hresolved⟩ := resolve_eq_ok.mp hrelation
  cases hschema.symm.trans howner
  cases hdecl.symm.trans hdecl'
  refine ⟨schema, correlate, hschema, ?_⟩
  cases hoptions : decl.options with
  | tie kind options =>
      rw [hoptions] at hresolved
      exact hresolved
  | route options =>
      rw [hoptions] at hresolved
      obtain ⟨way, far, -, ⟨found, hfound, hway⟩, hfar, rfl⟩ := hresolved
      rw [eq_tie_of_pivotTie hway] at hfound
      exact ⟨way, far, resolve_succ hfound, resolve_succ hfar, rfl⟩

/-! ## Ties -/

/-- A model declares a tie to another model without naming the keys. -/
def LeavesKeysOpen (registry : Registry) (model name : String) (kind : TieKind) (target : String) :
    Prop :=
  ∃ options, registry.Declares model name (.tie kind options) ∧ options.target = target ∧
    options.keys = none

/-- A model has a key of its own, and those that belong to it hold its foreign key. -/
def HasKeys (registry : Registry) (model own foreign : String) : Prop :=
  ∃ schema, registry.schema model = .ok schema ∧ schema.keyName = own ∧
    registry.naming.foreignKey model = .ok foreign

theorem keys_eq_of_hasKeys {own' foreign' : String} (h : registry.HasKeys model own foreign)
    (h' : registry.HasKeys model own' foreign') : own = own' ∧ foreign = foreign' := by
  obtain ⟨schema, hschema, rfl, hforeign⟩ := h
  obtain ⟨_, hschema', rfl, hforeign'⟩ := h'
  cases hschema.symm.trans hschema'
  exact ⟨rfl, Except.ok.inj (hforeign.symm.trans hforeign')⟩

/-- Keys that are left open are those of the model that is belonged to. -/
theorem hasKeys_of_resolveTie {owner : Schema} {correlate : String} {options : TieOptions} {tie : Tie}
    (howner : registry.schema model = .ok owner) (hkeys : options.keys = none)
    (h : registry.resolveTie owner name correlate kind options = .ok tie) :
    if kind = .belongsTo then registry.HasKeys options.target tie.targetKey tie.sourceKey
    else registry.HasKeys model tie.sourceKey tie.targetKey := by
  rw [resolveTie, hkeys] at h
  obtain ⟨schema, hschema, h⟩ := attempt_bind_eq_ok.mp h
  obtain ⟨keys, hdefault, h⟩ := attempt_bind_eq_ok.mp h
  cases h
  have howned : registry.naming.foreignKey owner.model = registry.naming.foreignKey model := by
    rw [model_of_schema howner]
  have htarget : registry.naming.foreignKey schema.model =
      registry.naming.foreignKey options.target := by
    rw [model_of_schema hschema]
  cases kind with
  | belongsTo =>
      obtain ⟨foreign, hforeign, hdefault⟩ := attempt_bind_eq_ok.mp hdefault
      cases hdefault
      exact ⟨schema, hschema, rfl, htarget ▸ hforeign⟩
  | hasOne | hasMany =>
      obtain ⟨foreign, hforeign, hdefault⟩ := attempt_bind_eq_ok.mp hdefault
      cases hdefault
      exact ⟨owner, howner, rfl, howned ▸ hforeign⟩

theorem hasKeys_of_relation {relation : Relation} (h : registry.LeavesKeysOpen model name kind target)
    (hrelation : registry.relation model name = .ok relation) :
    if kind = .belongsTo then registry.HasKeys target relation.targetKey relation.sourceKey
    else registry.HasKeys model relation.sourceKey relation.targetKey := by
  obtain ⟨options, hdeclares, rfl, hkeys⟩ := h
  obtain ⟨owner, correlate, howner, tie, htie, rfl⟩ := resolved_of_declares hdeclares hrelation
  exact hasKeys_of_resolveTie howner hkeys htie

theorem keys_swap {there back : String} {forth home : Relation} (hkind : kind ≠ .belongsTo)
    (hthere : registry.LeavesKeysOpen model there kind target)
    (hback : registry.LeavesKeysOpen target back .belongsTo model)
    (hforth : registry.relation model there = .ok forth)
    (hhome : registry.relation target back = .ok home) :
    forth.sourceKey = home.targetKey ∧ forth.targetKey = home.sourceKey := by
  have hforthKeys := hasKeys_of_relation hthere hforth
  have hhomeKeys := hasKeys_of_relation hback hhome
  rw [if_neg hkind] at hforthKeys
  rw [if_pos rfl] at hhomeKeys
  exact keys_eq_of_hasKeys hforthKeys hhomeKeys

/-! ## Both ends -/

/-- Where two models are tied in both directions and name no keys, the keys of the one tie are those of the
other, swapped.  A route has the target and the keys of the relation that its pivot goes on with, and the
pivot is the model that its first relation leads to. -/
theorem relation_ends_meet (registry : Registry) :
    (∀ model target there back kind forth home, kind ≠ .belongsTo →
      registry.LeavesKeysOpen model there kind target →
      registry.LeavesKeysOpen target back .belongsTo model →
      registry.relation model there = .ok forth → registry.relation target back = .ok home →
      forth.sourceKey = home.targetKey ∧ forth.targetKey = home.sourceKey) ∧
    ∀ model name options relation, registry.Declares model name (.route options) →
      registry.relation model name = .ok relation →
      ∃ way far, registry.relation model options.through = .ok way ∧
        relation.pivot? = some way.target ∧ registry.relation way.target options.far = .ok far ∧
        relation.target = far.target ∧ relation.sourceKey = far.sourceKey ∧
        relation.targetKey = far.targetKey := by
  refine ⟨fun _ _ _ _ _ _ _ => keys_swap, fun model name options relation hdeclares hrelation => ?_⟩
  obtain ⟨_, correlate, -, way, far, hway, hfar, rfl⟩ := resolved_of_declares hdeclares hrelation
  exact ⟨.tie way, far, hway, rfl, hfar, rfl, rfl, rfl⟩

end Registry

namespace Gallery

/-- Galleries with a key of their own, their images and the tags of these; all keys of relations are left
open. -/
def openModels : List Schema :=
  [((Schema.named "Gallery").setKey "uid").addTie .hasMany "images" { target := "Image" },
    (((Schema.named "Image").addTie .belongsTo "gallery" { target := "Gallery" }).addTie .hasMany
      "images_tags" { target := "ImageTag" }).addRelation (route "tags" "images_tags" "tag"),
    (Schema.named "ImageTag").addTie .belongsTo "tag" { target := "Tag" }, .named "Tag"]

/-- The models under a rule of their own for foreign keys. -/
def openRegistry : Registry :=
  ((Registry.empty (Naming.standard.withRule Naming.foreignKeyRule (· ++ "Id"))).insertAll
    openModels).toOption.getD (.empty .standard)

end Gallery

open Gallery in
/-- A gallery and its images are tied by the key of the gallery, and an image and its tags by that of the
tag. -/
theorem relation_ends_meet_gallery :
    (Registry.empty openRegistry.naming).insertAll openModels = .ok openRegistry ∧
      (∃ images gallery, openRegistry.relation "Gallery" "images" = .ok images ∧
        openRegistry.relation "Image" "gallery" = .ok gallery ∧
        images.sourceKey = gallery.targetKey ∧ images.targetKey = gallery.sourceKey ∧
        gallery.targetKey = "uid" ∧ gallery.sourceKey = "GalleryId") ∧
      ∃ tags way far, openRegistry.relation "Image" "tags" = .ok tags ∧
        openRegistry.relation "Image" "images_tags" = .ok way ∧ tags.pivot? = some way.target ∧
        openRegistry.relation way.target "tag" = .ok far ∧ tags.target = far.target ∧
        tags.sourceKey = far.sourceKey ∧ tags.targetKey = far.targetKey := by
  obtain ⟨hties, hroutes⟩ := Registry.relation_ends_meet openRegistry
  have himages : openRegistry.LeavesKeysOpen "Gallery" "images" .hasMany "Image" :=
    ⟨{ target := "Image" }, ⟨_, _, by rfl, by rfl, rfl⟩, rfl, rfl⟩
  have hgallery : openRegistry.LeavesKeysOpen "Image" "gallery" .belongsTo "Gallery" :=
    ⟨{ target := "Gallery" }, ⟨_, _, by rfl, by rfl, rfl⟩, rfl, rfl⟩
  have htags : openRegistry.Declares "Image" "tags" (.route ⟨"images_tags", "tag", .diff⟩) :=
    ⟨_, _, by rfl, by rfl, rfl⟩
  obtain ⟨images, himagesOf, himageKey⟩ : ∃ images,
      openRegistry.relation "Gallery" "images" = .ok images ∧ images.sourceKey = "uid" :=
    ⟨_, by rfl, by rfl⟩
  obtain ⟨gallery, hgalleryOf, hgalleryKey⟩ : ∃ gallery,
      openRegistry.relation "Image" "gallery" = .ok gallery ∧ gallery.sourceKey = "GalleryId" :=
    ⟨_, by rfl, by rfl⟩
  obtain ⟨tags, htagsOf⟩ : ∃ tags, openRegistry.relation "Image" "tags" = .ok tags :=
    ⟨_, by rfl⟩
  obtain ⟨hsource, htarget⟩ :=
    hties _ _ _ _ _ _ _ (by decide) himages hgallery himagesOf hgalleryOf
  obtain ⟨way, far, hroute⟩ := hroutes _ _ _ _ htags htagsOf
  exact ⟨by rfl, ⟨images, gallery, himagesOf, hgalleryOf, hsource, htarget, hsource ▸ himageKey,
    hgalleryKey⟩, tags, way, far, htagsOf, hroute⟩

end RecordMapper
