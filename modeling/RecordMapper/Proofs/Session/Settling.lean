import RecordMapper.Proofs.Session.Clean

/-!
# Changes that a save makes in memory

A save gives fields equal values, puts back related entities, and lets pivots adopt the rows that
they fit.  None of this makes anything to write.
-/

namespace RecordMapper

namespace Entity

variable {db : Database} {entity entity' : Entity}

theorem fits_of_settles {schema : Schema} {farKey : String} {row : Row}
    (h : entity.Fits schema farKey row) (hsettles : entity.Settles db entity') :
    entity'.Fits schema farKey row := by
  refine ⟨fun field value' hfield hvalue' => ?_, h.defined, ?_⟩
  · cases hvalue : entity.get? field with
    | none =>
        rw [hsettles.missing field hvalue] at hvalue'
        cases hvalue'
    | some value =>
        obtain ⟨stored, hstored, hequals⟩ := h.values field value hfield hvalue
        obtain ⟨found, hfound, hsame⟩ := hsettles.covers field value hvalue
        rw [hvalue'] at hfound
        cases hfound
        exact ⟨stored, hstored, Value.equals_of_same_left hsame hequals⟩
  · obtain ⟨far, hfar, hrow⟩ := sharesFar_iff.mp h.shares
    exact sharesFar_iff.mpr ⟨far, fieldKey?_eq_of_covers hsettles.covers hfar, hrow⟩

theorem storedId?_of_settles (h : entity.Settles db entity') (key : Option String) :
    entity'.storedId? key = entity.storedId? key := by
  simp only [storedId?, stored?, h.snapshot]

theorem haveIds_of_settles {key : Option String} {rows : List Row} {pivots pivots' : List Entity}
    (h : HaveIds key rows pivots) (hsettles : List.Forall₂ (Settles db) pivots pivots') :
    HaveIds key rows pivots' := by
  cases h with
  | inl hnone =>
      refine .inl fun pivot' hpivot' => ?_
      obtain ⟨pivot, hpivot, hsettle⟩ := exists_of_mem_right hsettles hpivot'
      rw [storedId?_of_settles hsettle]
      exact hnone pivot hpivot
  | inr hsame =>
      refine .inr (forall₂_comp hsame hsettles fun row pivot pivot' hid hsettle => ?_)
      rw [storedId?_of_settles hsettle]
      exact hid

theorem keepsPivots_of_settles {tie : Tie} {farKey : String} (hcovers : entity.Covers entity')
    (hattached : List.Forall₂ (Settles db) (entity.attached tie.name)
      (entity'.attached tie.name)) (h : tie.CleanRoute db farKey entity) :
    tie.KeepsPivots db farKey entity' := by
  intro pivot rows casts hpivot hrows hcasts
  have hbefore : tie.Answers db pivot [] entity rows := answers_of_covers h.source hcovers hrows
  obtain ⟨hfits, hids⟩ := h.pivots pivot rows casts hpivot hbefore hcasts
  refine ⟨forall₂_comp hfits hattached fun row entity entity' => ?_,
    haveIds_of_settles hids hattached⟩
  exact fits_of_settles

theorem settles_refl_all (entities : List Entity) :
    List.Forall₂ (Settles db) entities entities :=
  List.forall₂_same.mpr fun entity _ => settles_refl db entity

theorem settles_set {field : String} {value value' : Value} (hvalue : entity.get? field = some value)
    (hequals : value.equals value' = true) :
    entity.Settles db (entity.set field value') := by
  have hcovers : entity.Covers (entity.set field value') :=
    covers_set hvalue (Value.same_of_equals hequals)
  have hattached : ∀ name, List.Forall₂ (Settles db) (entity.attached name)
      ((entity.set field value').attached name) := fun name => settles_refl_all _
  refine ⟨becomes_of_changes ⟨rfl, hcovers, ?_, fun _ => rfl, fun _ collection h => ⟨collection, h⟩,
    ?_, ?_⟩, rfl, ?_⟩
  · intro hsettled schema hschema
    obtain ⟨row, hrow, hunchanged⟩ := hsettled schema hschema
    refine ⟨row, hrow, fun other found hother hfound => ?_⟩
    rw [get?_set] at hfound
    by_cases heq : other = field
    · rw [if_pos heq] at hfound
      cases hfound
      rw [heq] at hother ⊢
      obtain ⟨stored, hstored, hkept⟩ := hunchanged field value hother hvalue
      exact ⟨stored, hstored, Value.equals_of_same_left (Value.same_of_equals hequals) hkept⟩
    · rw [if_neg heq] at hfound
      exact hunchanged other found hother hfound
  · exact fun name => (hattached name).imp fun _ _ h => h.toBecomes
  · exact fun tie farKey _ hclean => keepsPivots_of_settles hcovers (hattached tie.name) hclean
  · intro other hnone
    have hother : other ≠ field := fun heq => by rw [heq, hvalue] at hnone; cases hnone
    rw [get?_set, if_neg hother]
    exact hnone

theorem many_of_setRelation {name : String} {related related' : Related}
    (hrelated : entity.relation? name = some related)
    (hmany : ∀ collection', related' = .many collection' → ∃ collection, related = .many collection)
    (other : String) (collection' : Collection)
    (h : (entity.setRelation name related').relation? other = some (.many collection')) :
    ∃ collection, entity.relation? other = some (.many collection) := by
  rw [relation?_setRelation] at h
  by_cases hother : other = name
  · rw [if_pos hother] at h
    obtain ⟨collection, hcollection⟩ := hmany collection' (Option.some.inj h)
    exact ⟨collection, by rw [hother, hrelated, hcollection]⟩
  · rw [if_neg hother] at h
    exact ⟨collection', h⟩

theorem settles_setRelation {name : String} {related related' : Related}
    (hrelated : entity.relation? name = some related)
    (hmany : ∀ collection', related' = .many collection' → ∃ collection, related = .many collection)
    (hentities : List.Forall₂ (Settles db) related.entities related'.entities) :
    entity.Settles db (entity.setRelation name related') := by
  have hcovers : entity.Covers (entity.setRelation name related') := covers_refl entity
  have hattached : ∀ other, List.Forall₂ (Settles db) (entity.attached other)
      ((entity.setRelation name related').attached other) := by
    intro other
    rw [attached_setRelation]
    by_cases hother : other = name
    · rw [if_pos hother, hother, attached_of_relation? hrelated]
      exact hentities
    · rw [if_neg hother]
      exact settles_refl_all _
  refine ⟨becomes_of_changes ⟨rfl, hcovers, fun h => h, fun other => ?_, ?_, ?_, ?_⟩, rfl,
    fun _ h => h⟩
  · exact isLoaded_setRelation (isLoaded_of_relation? hrelated) other related'
  · exact many_of_setRelation hrelated hmany
  · exact fun other => (hattached other).imp fun _ _ h => h.toBecomes
  · exact fun tie farKey _ hclean => keepsPivots_of_settles hcovers (hattached tie.name) hclean

/-! ## Adopted rows -/

theorem hasField_of_declaredKey? {schema : Schema} {field : String}
    (h : some field = schema.declaredKey?) : schema.hasField field = true := by
  unfold Schema.declaredKey? at h
  split at h
  next hfield =>
      cases h
      exact hfield
  next => cases h

variable {schema : Schema} {farKey : String} {row : Row}

theorem covers_adopt (h : entity.Fits schema farKey row) :
    entity.Covers (entity.adopt row schema.declaredKey?) := by
  intro field value hvalue
  rw [get?_adopt]
  by_cases hkey : some field = schema.declaredKey?
  · rw [if_pos hkey]
    obtain ⟨stored, hstored, hequals⟩ :=
      h.values field value (hasField_of_declaredKey? hkey) hvalue
    exact ⟨stored, hstored, Value.same_of_equals hequals⟩
  · rw [if_neg hkey, hvalue]
    exact ⟨value, rfl, value.same_refl⟩

theorem values_adopt (h : entity.Fits schema farKey row) (field : String) (value : Value)
    (hfield : schema.hasField field = true)
    (hvalue : (entity.adopt row schema.declaredKey?).get? field = some value) :
    ∃ stored, row.get? field = some stored ∧ value.equals stored = true := by
  rw [get?_adopt] at hvalue
  by_cases hkey : some field = schema.declaredKey?
  · rw [if_pos hkey] at hvalue
    exact ⟨value, hvalue, h.defined field value hfield hvalue⟩
  · rw [if_neg hkey] at hvalue
    cases hown : entity.get? field with
    | some found =>
        rw [hown] at hvalue
        cases hvalue
        exact h.values field value hfield hown
    | none =>
        rw [hown] at hvalue
        exact ⟨value, hvalue, h.defined field value hfield hvalue⟩

theorem fits_adopt (h : entity.Fits schema farKey row) :
    (entity.adopt row schema.declaredKey?).Fits schema farKey row := by
  obtain ⟨far, hfar, hrow⟩ := sharesFar_iff.mp h.shares
  exact ⟨values_adopt h, h.defined,
    sharesFar_iff.mpr ⟨far, fieldKey?_eq_of_covers (covers_adopt h) hfar, hrow⟩⟩

theorem isSettled_adopt (hschema : db.registry.schema entity.model = .ok schema)
    (h : entity.Fits schema farKey row) :
    (entity.adopt row schema.declaredKey?).IsSettled db := by
  intro found hfound
  have hsame : found = schema := Except.ok.inj (hfound.symm.trans hschema)
  subst hsame
  exact ⟨row, rfl, values_adopt h⟩

theorem becomes_adopt (hschema : db.registry.schema entity.model = .ok schema)
    (h : entity.Fits schema farKey row) :
    entity.Becomes db (entity.adopt row schema.declaredKey?) := by
  have hcovers : entity.Covers (entity.adopt row schema.declaredKey?) := covers_adopt h
  refine becomes_of_changes ⟨rfl, hcovers, fun _ => isSettled_adopt hschema h, fun _ => rfl,
    fun _ collection h => ⟨collection, h⟩, ?_, ?_⟩
  · exact fun name => List.forall₂_same.mpr fun related _ => becomes_refl db related
  · exact fun tie farKey _ hclean => keepsPivots_of_settles hcovers (settles_refl_all _) hclean

theorem becomes_adoptAll {casts : List Row} {pivots : List Entity}
    (hmodels : ∀ pivot ∈ pivots, db.registry.schema pivot.model = .ok schema)
    (hfits : List.Forall₂ (fun row pivot => pivot.Fits schema farKey row) casts pivots) :
    List.Forall₂ (Becomes db) pivots
      (List.zipWith (fun row pivot => pivot.adopt row schema.declaredKey?) casts pivots) := by
  refine forall₂_zipWith_right (R := fun row pivot => pivot.Fits schema farKey row ∧
    db.registry.schema pivot.model = .ok schema) ?_ fun row pivot h => becomes_adopt h.2 h.1
  refine List.forall₂_iff_zip.mpr ⟨hfits.length_eq, fun {row pivot} hpair => ?_⟩
  exact ⟨List.forall₂_zip hfits hpair, hmodels pivot (List.of_mem_zip hpair).2⟩

/-- A relation over the same pivots, with another far key perhaps, still finds a row for each of them. -/
theorem keepsPivots_adoptAll {route : Tie} {farKey' : String} {rows casts : List Row}
    {collection : Collection} (hschema : db.registry.schema route.target = .ok schema)
    (hclean : route.CleanRoute db farKey entity) (hothers : route.CleanRoute db farKey' entity)
    (hrows : route.Answers db schema [] entity rows) (hcasts : rows.mapM schema.castRow = .ok casts)
    (hattached : entity.attached route.name = collection.entities) :
    route.KeepsPivots db farKey' (entity.setRelation route.name (.many ⟨collection.model,
      List.zipWith (fun row pivot => pivot.adopt row schema.declaredKey?) casts
        collection.entities⟩)) := by
  intro found foundRows foundCasts hfound hfoundRows hfoundCasts
  cases hfound.symm.trans hschema
  cases hclean.steady schema rows foundRows hschema hrows hfoundRows
  cases hfoundCasts.symm.trans hcasts
  have hfits := (hothers.pivots schema rows casts hschema hrows hcasts).1
  rw [hattached] at hfits
  rw [attached_setRelation_self]
  exact ⟨forall₂_zipWith_left hfits fun row pivot => fits_adopt,
    .inr (forall₂_zipWith_left hfits fun row pivot _ => rfl)⟩

/-- Pivots that all adopt their rows make nothing to write, also for other relations that lead over
them. -/
theorem settles_adoptAll {route : Tie} {rows casts : List Row} {collection : Collection}
    (hrelation : db.registry.relation entity.model route.name = .ok (.tie route))
    (hschema : db.registry.schema route.target = .ok schema)
    (hclean : route.CleanRoute db farKey entity)
    (hrows : route.Answers db schema [] entity rows) (hcasts : rows.mapM schema.castRow = .ok casts)
    (hrelated : entity.relation? route.name = some (.many collection)) :
    entity.Settles db (entity.setRelation route.name (.many ⟨collection.model,
      List.zipWith (fun row pivot => pivot.adopt row schema.declaredKey?) casts
        collection.entities⟩)) := by
  have hattached : entity.attached route.name = collection.entities :=
    attached_of_relation? hrelated
  have hfits : List.Forall₂ (fun row pivot => pivot.Fits schema farKey row) casts
      collection.entities := by
    rw [← hattached]
    exact (hclean.pivots schema rows casts hschema hrows hcasts).1
  have hmodels : ∀ pivot ∈ collection.entities, db.registry.schema pivot.model = .ok schema := by
    intro pivot hpivot
    rw [← hattached] at hpivot
    rw [hclean.models pivot hpivot]
    exact hschema
  refine ⟨becomes_of_changes ⟨rfl, covers_refl entity, fun h => h, ?_, ?_, ?_, ?_⟩, rfl,
    fun _ h => h⟩
  · exact fun name => isLoaded_setRelation (isLoaded_of_relation? hrelated) name _
  · exact many_of_setRelation hrelated fun _ _ => ⟨collection, rfl⟩
  · intro name
    rw [attached_setRelation]
    by_cases hname : name = route.name
    · rw [if_pos hname, hname, hattached]
      exact becomes_adoptAll hmodels hfits
    · rw [if_neg hname]
      exact (settles_refl_all _).imp fun _ _ h => h.toBecomes
  · intro tie farKey' htie hothers
    by_cases hname : tie.name = route.name
    · rw [hname, hrelation] at htie
      cases htie
      exact keepsPivots_adoptAll hschema hclean hothers hrows hcasts hattached
    · refine keepsPivots_of_settles (covers_refl entity) ?_ hothers
      rw [attached_setRelation, if_neg hname]
      exact settles_refl_all _

end Entity

end RecordMapper
