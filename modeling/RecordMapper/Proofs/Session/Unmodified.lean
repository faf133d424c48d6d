import RecordMapper.Proofs.Session.Cascade
import RecordMapper.Proofs.Session.Quiet
import RecordMapper.Proofs.Session.Settling

/-!
# Saving what agrees with the stored rows

A save of a graph that agrees with the stored rows sends nothing but selections, and it leaves a
graph that agrees with them.
-/

namespace RecordMapper

open Edit

variable {db : Database}

theorem Entity.isStored_of_isUnchanged {schema : Schema} {entity : Entity}
    (h : entity.IsUnchanged schema) : entity.isStored = true := by
  obtain ⟨row, hrow, -⟩ := h
  rw [isStored, hrow]
  rfl

theorem Schema.changedValues_of_isUnchanged {schema : Schema} {entity : Entity}
    (h : entity.IsUnchanged schema) : schema.changedValues entity = [] := by
  obtain ⟨row, hrow, hunchanged⟩ := h
  unfold changedValues
  rw [List.filter_eq_nil_iff]
  rintro ⟨field, value⟩ hpair hchanged
  obtain ⟨hfield, hmodified⟩ := Bool.and_eq_true_iff.mp hchanged
  have hvalue : entity.get? field = some value := Row.get?_eq_some_iff.mpr hpair
  obtain ⟨stored, hstored, hequals⟩ := hunchanged field value hfield hvalue
  simp [Entity.isModified, hrow, hvalue, hstored, Value.equalsOption, hequals] at hmodified

theorem Database.quiet_persist {entity : Entity} (h : entity.IsSettled db) :
    db.persist.Quiet entity fun _ entity' => entity' = entity := by
  unfold persist
  refine quiet_subject_bind (quiet_lift_bind fun schema hschema => ?_)
  have hunchanged : entity.IsUnchanged schema := h schema hschema
  rw [if_pos (Entity.isStored_of_isUnchanged hunchanged), update]
  simp only [Schema.changedValues_of_isUnchanged hunchanged, List.isEmpty_nil, if_true]
  exact quiet_pure rfl

/-! ## Ties -/

namespace Tie

variable {save : Edit Entity Unit} {below : Entity → Prop} {owner : Entity}

theorem quiet_onOne_requireKey {name sourceKey targetKey target : String}
    (hsave : ∀ related, below related → save.Quiet related fun _ related' =>
      related.Settles db related')
    (hjoined : ∀ related ∈ owner.attached name, owner.Joined sourceKey related targetKey)
    (hbelow : ∀ related ∈ owner.attached name, below related) :
    (onOne name do
      save
      (← Edit.subject).requireKey targetKey target name).Quiet owner fun saved owner' =>
        owner.Settles db owner' ∧ ∀ key, saved = some key →
          ∃ own, owner'.get? sourceKey = some own ∧ own.equals key = true := by
  refine quiet_onOne (fun _ => ⟨Entity.settles_refl db owner, nofun⟩) fun related hone => ?_
  have hrelation := Entity.relation?_of_one hone
  have hmem : related ∈ owner.attached name := by
    rw [Entity.attached_of_relation? hrelation]
    exact List.mem_singleton_self related
  refine quiet_bind (hsave related (hbelow related hmem)) fun _ related' hsettles => ?_
  refine quiet_subject_bind (quiet_lift fun key hkey => ⟨?_, fun key' hsaved => ?_⟩)
  · exact Entity.settles_setRelation hrelation nofun (.cons hsettles .nil)
  · cases hsaved
    obtain ⟨own, found, hown, hfound, hequals⟩ := hjoined related hmem
    obtain ⟨found', hfound', hsame⟩ := hsettles.covers targetKey found hfound
    rw [(Entity.get?_of_requireKey hkey).1] at hfound'
    cases hfound'
    exact ⟨own, hown, Value.equals_of_same hequals hsame⟩

theorem quiet_saveBelongsTo {tie : Tie}
    (hsave : ∀ related, below related → save.Quiet related fun _ related' =>
      related.Settles db related')
    (hclean : tie.Clean db owner) (hbelow : ∀ related ∈ owner.attached tie.name, below related) :
    (tie.saveBelongsTo save).Quiet owner fun _ owner' => owner.Settles db owner' := by
  unfold saveBelongsTo
  refine quiet_bind (quiet_onOne_requireKey hsave hclean.joined hbelow) ?_
  rintro saved owner' ⟨hsettles, hsaved⟩
  cases saved with
  | none => exact quiet_pure hsettles
  | some key =>
      obtain ⟨own, hown, hequals⟩ := hsaved key rfl
      exact quiet_modify (Entity.settles_trans hsettles (Entity.settles_set hown hequals))

theorem settles_set_targetKey {tie : Tie} {child : Entity} {ownerKey : Value}
    (hjoined : owner.Joined tie.sourceKey child tie.targetKey)
    (hkey : owner.get? tie.sourceKey = some ownerKey) :
    child.Settles db (child.set tie.targetKey ownerKey) := by
  obtain ⟨own, found, hown, hfound, hequals⟩ := hjoined
  rw [hkey] at hown
  cases hown
  exact Entity.settles_set hfound (Value.equals_symm _ _ hequals)

theorem quiet_saveHasOne {tie : Tie}
    (hsave : ∀ related, below related → save.Quiet related fun _ related' =>
      related.Settles db related')
    (hstable : ∀ related related', related.Settles db related' → below related → below related')
    (hclean : tie.Clean db owner) (hbelow : ∀ related ∈ owner.attached tie.name, below related) :
    (tie.saveHasOne save).Quiet owner fun _ owner' => owner.Settles db owner' := by
  unfold saveHasOne
  refine quiet_subject_bind (quiet_lift_bind fun ownerKey hkey => ?_)
  have hownerKey := (Entity.get?_of_requireKey hkey).1
  have hchild : (onOne tie.name do
      Edit.modify fun child => child.set tie.targetKey ownerKey
      save).Quiet owner fun _ owner' => owner.Settles db owner' := by
    refine quiet_onOne (fun _ => Entity.settles_refl db owner) fun child hone => ?_
    have hrelation := Entity.relation?_of_one hone
    have hmem : child ∈ owner.attached tie.name := by
      rw [Entity.attached_of_relation? hrelation]
      exact List.mem_singleton_self child
    have hset : child.Settles db (child.set tie.targetKey ownerKey) :=
      settles_set_targetKey (hclean.joined child hmem) hownerKey
    refine quiet_modify_bind (quiet_mono (hsave _ (hstable child _ hset (hbelow child hmem))) ?_)
    intro _ child' hsettles
    exact Entity.settles_setRelation hrelation nofun
      (.cons (Entity.settles_trans hset hsettles) .nil)
  exact quiet_bind hchild fun _ _ h => quiet_pure h

theorem quiet_saveChild {tie : Tie} {child : Entity} {ownerKey : Value} {childKey : String}
    (hsave : ∀ related, below related → save.Quiet related fun _ related' =>
      related.Settles db related')
    (hset : child.Settles db (child.set tie.targetKey ownerKey))
    (hbelow : below (child.set tie.targetKey ownerKey)) :
    (tie.saveChild ownerKey childKey save).Quiet child fun key child' =>
      child.Settles db child' ∧ key = child'.fieldKey? childKey := by
  unfold saveChild
  refine quiet_modify_bind (quiet_bind (hsave _ hbelow) fun _ child' hsettles => ?_)
  exact quiet_subject_bind (quiet_pure ⟨Entity.settles_trans hset hsettles, rfl⟩)

theorem ownedSelect_of_matchCondition {tie : Tie} {condition : Condition}
    (h : (Relation.tie tie).matchCondition owner = .ok condition) :
    ∃ value, owner.get? tie.sourceKey = some value ∧ value.isNull = false ∧
      condition = tie.related value := by
  obtain ⟨value, hvalue, hcondition⟩ := attempt_bind_eq_ok.mp h
  cases hcondition
  obtain ⟨hget, hnull⟩ := Entity.get?_of_requireKey hvalue
  exact ⟨value, hget, hnull, rfl⟩

theorem answers_of_render {tie : Tie} {target : Schema} {columns : List String} {value : Value}
    {log : Log} {sql : String} {rows : List Row} (hvalue : owner.get? tie.sourceKey = some value)
    (hnull : value.isNull = false)
    (hsql : (tie.ownedSelect target columns value).render db.dialect = .ok sql)
    (hrows : db.connection.answer log sql = .ok rows) :
    tie.Answers db target columns owner rows :=
  ⟨value, value, log, sql, hvalue, value.same_refl, hnull, hsql, hrows⟩

theorem missingIds_eq_nil {column : String} {rows : List Row} {present : List (Option Key)}
    (h : ∀ row ∈ rows, ∀ id, row.get? column = some id → id.key?.isSome = true →
      id.key? ∈ present) : missingIds column rows present = [] := by
  unfold missingIds
  rw [List.filter_eq_nil_iff]
  intro id hid hmissing
  obtain ⟨row, hrow, hget⟩ := List.mem_filterMap.mp hid
  obtain ⟨hsome, habsent⟩ := Bool.and_eq_true_iff.mp hmissing
  have hpresent : id.key? ∈ present := h row hrow id hget hsome
  rw [← List.contains_iff_mem] at hpresent
  rw [hpresent] at habsent
  cases habsent

theorem quiet_saveChildren {tie : Tie} {children : List Entity} {ownerKey : Value}
    (childKey : String)
    (hsave : ∀ related, below related → save.Quiet related fun _ related' =>
      related.Settles db related')
    (hstable : ∀ related related', related.Settles db related' → below related → below related')
    (hkey : owner.get? tie.sourceKey = some ownerKey)
    (hjoined : ∀ child ∈ children, owner.Joined tie.sourceKey child tie.targetKey)
    (hbelow : ∀ child ∈ children, below child) :
    (Edit.forEach (tie.saveChild ownerKey childKey save)).Quiet children fun present children' =>
      List.Forall₂ (Entity.Settles db) children children' ∧
        present = children'.map fun child => child.fieldKey? childKey := by
  refine quiet_forEach fun child hchild => ?_
  have hset : child.Settles db (child.set tie.targetKey ownerKey) :=
    settles_set_targetKey (hjoined child hchild) hkey
  exact quiet_saveChild hsave hset (hstable child _ hset (hbelow child hchild))

theorem quiet_saveHasMany {tie : Tie}
    (hsave : ∀ related, below related → save.Quiet related fun _ related' =>
      related.Settles db related')
    (hstable : ∀ related related', related.Settles db related' → below related → below related')
    (hmany : tie.kind = .hasMany) (hclean : tie.Clean db owner)
    (hbelow : ∀ related ∈ owner.attached tie.name, below related) :
    (tie.saveHasMany db save).Quiet owner fun _ owner' => owner.Settles db owner' := by
  unfold saveHasMany
  refine quiet_subject_bind (quiet_lift_bind fun ownerKey hkey => ?_)
  refine quiet_lift_bind fun target htarget => quiet_lift_bind fun _ _ => ?_
  refine quiet_lift_bind fun condition hcondition => ?_
  obtain ⟨value, hvalue, hnull, rfl⟩ := ownedSelect_of_matchCondition hcondition
  refine Database.quiet_select_bind fun log sql rows hsql hrows => ?_
  have hanswers : tie.Answers db target [target.keyName] owner rows :=
    answers_of_render hvalue hnull hsql hrows
  have hchildren : (onMany tie.name
      (Edit.forEach (tie.saveChild ownerKey target.keyName save))).Quiet owner
      fun present owner' => owner.Settles db owner' ∧ ∀ row ∈ rows, ∀ id,
        row.get? target.keyName = some id → id.key?.isSome = true → id.key? ∈ present := by
    refine quiet_onMany fun collection hcollection => ?_
    have hrelation := Entity.relation?_of_many hcollection
    have hattached : owner.attached tie.name = collection.entities :=
      Entity.attached_of_relation? hrelation
    have hownerKey := (Entity.get?_of_requireKey hkey).1
    have hsaved := quiet_saveChildren target.keyName hsave hstable hownerKey
      (hattached ▸ hclean.joined) (hattached ▸ hbelow)
    refine quiet_mono hsaved fun present children ⟨hsettles, hpresent⟩ => ⟨?_, ?_⟩
    · exact Entity.settles_setRelation hrelation (fun _ _ => ⟨collection, rfl⟩) hsettles
    · intro row hrow id hid hsome
      obtain ⟨child, hchild, hchildKey⟩ :=
        hclean.children hmany target rows htarget hanswers row hrow id hid hsome
      rw [hattached] at hchild
      obtain ⟨child', hchild', hsettle⟩ := exists_of_mem_left hsettles hchild
      obtain ⟨idKey, hidKey⟩ := Option.isSome_iff_exists.mp hsome
      rw [hidKey] at hchildKey ⊢
      rw [hpresent, ← Entity.fieldKey?_eq_of_covers hsettle.covers hchildKey]
      exact List.mem_map_of_mem hchild'
  refine quiet_bind hchildren ?_
  rintro present owner' ⟨hsettles, hpresent⟩
  rw [missingIds_eq_nil hpresent]
  exact quiet_pure hsettles

theorem quiet_save {tie : Tie}
    (hsave : ∀ related, below related → save.Quiet related fun _ related' =>
      related.Settles db related')
    (hstable : ∀ related related', related.Settles db related' → below related → below related')
    (hclean : tie.Clean db owner) (hbelow : ∀ related ∈ owner.attached tie.name, below related) :
    (tie.save db save).Quiet owner fun _ owner' => owner.Settles db owner' := by
  unfold Tie.save
  cases hkind : tie.kind with
  | belongsTo => exact quiet_saveBelongsTo hsave hclean hbelow
  | hasOne => exact quiet_saveHasOne hsave hstable hclean hbelow
  | hasMany => exact quiet_saveHasMany hsave hstable hkind hclean hbelow

end Tie

/-! ## Pivots -/

namespace Edit

variable {saveFar : Edit Entity Unit} {below : Entity → Prop} {owner : Entity}

theorem quiet_preparePivot {route : Tie} {far : Relation} {ownerKey : Value} {pivot : Entity}
    (hsave : ∀ related, below related → saveFar.Quiet related fun _ related' =>
      related.Settles db related')
    (hfar : far.Everywhere (.clean db) below pivot) (hkey : owner.get? route.sourceKey = some ownerKey)
    (hjoined : owner.Joined route.sourceKey pivot route.targetKey) :
    (preparePivot route far ownerKey saveFar).Quiet pivot fun _ pivot' =>
      pivot.Settles db pivot' := by
  -- the key of the owner can be set after any change that settles the pivot
  have hlast : ∀ pivot', pivot.Settles db pivot' →
      (modify fun pivot => pivot.set route.targetKey ownerKey).Quiet pivot' fun _ pivot' =>
        pivot.Settles db pivot' := by
    intro pivot' hsettles
    have hjoined' : owner.Joined route.sourceKey pivot' route.targetKey :=
      Entity.joined_of_covers hjoined (Entity.covers_refl owner) hsettles.covers
    exact quiet_modify (Entity.settles_trans hsettles (Tie.settles_set_targetKey hjoined' hkey))
  unfold preparePivot
  refine quiet_subject_bind ?_
  split
  next hloaded =>
      have hone : (∀ related ∈ pivot.attached far.name,
            pivot.Joined far.sourceKey related far.targetKey) ∧
          ∀ related ∈ pivot.attached far.name, below related := by
        cases far with
        | tie t => exact ⟨(hfar hloaded).1.joined, (hfar hloaded).2⟩
        | through name correlate route far mode =>
            have hnone : pivot.attached name = [] := (hfar hloaded).1
            refine ⟨fun related hrelated => ?_, fun related hrelated => ?_⟩
            all_goals
              change related ∈ pivot.attached name at hrelated
              rw [hnone] at hrelated
              cases hrelated
      refine quiet_bind (Tie.quiet_onOne_requireKey hsave hone.1 hone.2) ?_
      rintro saved pivot' ⟨hsettles, hsaved⟩
      cases saved with
      | none => exact hlast pivot' hsettles
      | some key =>
          obtain ⟨own, hown, hequals⟩ := hsaved key rfl
          exact quiet_modify_bind
            (hlast _ (Entity.settles_trans hsettles (Entity.settles_set hown hequals)))
  next => exact hlast pivot (Entity.settles_refl db pivot)

theorem quiet_preparePivots {route : Tie} {far : Relation} {ownerKey : Value}
    {pivots : List Entity}
    (hsave : ∀ related, below related → saveFar.Quiet related fun _ related' =>
      related.Settles db related')
    (hfar : ∀ pivot ∈ pivots, far.Everywhere (.clean db) below pivot)
    (hkey : owner.get? route.sourceKey = some ownerKey)
    (hjoined : ∀ pivot ∈ pivots, owner.Joined route.sourceKey pivot route.targetKey) :
    (forEach (preparePivot route far ownerKey saveFar)).Quiet pivots fun _ pivots' =>
      List.Forall₂ (Entity.Settles db) pivots pivots' := by
  have hprepared : (forEach (preparePivot route far ownerKey saveFar)).Quiet pivots
      fun results pivots' => List.Forall₂ (Entity.Settles db) pivots pivots' ∧
        results = pivots'.map fun _ => () := by
    refine quiet_forEach fun pivot hpivot => ?_
    refine quiet_mono (quiet_preparePivot hsave (hfar pivot hpivot) hkey (hjoined pivot hpivot)) ?_
    exact fun _ _ h => ⟨h, rfl⟩
  exact quiet_mono hprepared fun _ _ h => h.1

theorem quiet_settlePivots {schema : Schema} {farKey : String} {casts : List Row}
    {pivots : List Entity}
    (hmodels : ∀ pivot ∈ pivots, db.registry.schema pivot.model = .ok schema)
    (hfits : List.Forall₂ (Entity.Fits schema farKey) casts pivots) :
    (forEachWith (settlePivot db schema.declaredKey?) (casts.map some)).Quiet pivots
      fun _ pivots' => pivots' =
        List.zipWith (fun row pivot => pivot.adopt row schema.declaredKey?) casts pivots := by
  have hsettle : List.Forall₂ (fun row? pivot =>
      (settlePivot db schema.declaredKey? row?).Quiet pivot fun _ pivot' =>
        pivot' = row?.elim pivot fun row => pivot.adopt row schema.declaredKey?)
      (casts.map some) pivots := by
    rw [List.forall₂_map_left_iff, List.forall₂_iff_zip]
    refine ⟨hfits.length_eq, fun {row pivot} hpair => ?_⟩
    have hfit : pivot.Fits schema farKey row := List.forall₂_zip hfits hpair
    have hmodel := hmodels pivot (List.of_mem_zip hpair).2
    unfold settlePivot
    exact quiet_modify_bind (Database.quiet_persist (Entity.isSettled_adopt hmodel hfit))
  have hrun := quiet_forEachWith hsettle
  rw [List.zipWith_map_left] at hrun
  exact hrun

theorem quiet_deleteStale_nil {pivot : Schema} {pivots : List Entity}
    {post : Unit → List Entity → Prop} (h : post () pivots) :
    (deleteStale db pivot []).Quiet pivots post :=
  quiet_pure h

theorem quiet_diffPivots {route : Tie} {schema : Schema} {farKey : String} {value : Value}
    {collection : Collection}
    (hrelation : db.registry.relation owner.model route.name = .ok (.tie route))
    (hschema : db.registry.schema route.target = .ok schema)
    (hclean : route.CleanRoute db farKey owner) (hvalue : owner.get? route.sourceKey = some value)
    (hnull : value.isNull = false)
    (hmany : owner.relation? route.name = some (.many collection)) :
    (diffPivots db schema farKey (route.related value)).Quiet collection.entities
      fun _ pivots' => owner.Settles db
        (owner.setRelation route.name (.many ⟨collection.model, pivots'⟩)) := by
  have hattached : owner.attached route.name = collection.entities :=
    Entity.attached_of_relation? hmany
  unfold diffPivots
  refine Database.quiet_select_bind fun log sql rows hsql hrows => ?_
  have hselect : (route.ownedSelect schema [] value).render db.dialect = .ok sql := hsql
  have hanswers : route.Answers db schema [] owner rows :=
    Tie.answers_of_render hvalue hnull hselect hrows
  refine quiet_lift_bind fun casts hcasts => quiet_subject_bind ?_
  obtain ⟨hfits, hids⟩ := hclean.pivots schema rows casts hschema hanswers hcasts
  rw [hattached] at hfits hids
  have hshares : List.Forall₂ (fun row pivot => pivot.sharesFar farKey row = true) casts
      collection.entities := hfits.imp fun _ _ h => h.shares
  rw [pairRows_of_forall₂ hshares hids]
  have hmodels : ∀ pivot ∈ collection.entities,
      db.registry.schema pivot.model = .ok schema := by
    intro pivot hpivot
    rw [← hattached] at hpivot
    rw [hclean.models pivot hpivot]
    exact hschema
  refine quiet_bind (quiet_settlePivots hmodels hfits) ?_
  rintro - pivots' rfl
  exact quiet_deleteStale_nil
    (Entity.settles_adoptAll hrelation hschema hclean hanswers hcasts hmany)

end Edit

/-! ## Relations and trees -/

namespace Relation

variable {saveBelow : Edit Entity Unit} {below : EmbedTree} {owner : Entity}

theorem quiet_saveThrough {name through correlate : String} {route : Tie} {far : Relation}
    {mode : PivotMode}
    (hrelation : db.registry.relation owner.model name =
      .ok (.through through correlate route far mode))
    (hloaded : owner.isLoaded through = true) (hclean : owner.Clean db (.cons name below .nil))
    (hsave : ∀ related, related.Clean db below → saveBelow.Quiet related fun _ related' =>
      related.Settles db related') :
    (saveThrough db route far mode saveBelow).Quiet owner fun _ owner' =>
      owner.Settles db owner' := by
  unfold saveThrough
  refine quiet_subject_bind ?_
  split
  next =>
      have hparts := Registry.parts_of_relation hrelation
      refine quiet_lift_bind fun ownerKey hkey => quiet_lift_bind fun schema hschema =>
        quiet_lift_bind fun condition hcondition => ?_
      obtain ⟨value, hvalue, hnull, rfl⟩ := Tie.ownedSelect_of_matchCondition hcondition
      refine quiet_onMany fun collection hcollection => ?_
      have hmany := Entity.relation?_of_many hcollection
      have hattached : owner.attached route.name = collection.entities :=
        Entity.attached_of_relation? hmany
      obtain ⟨⟨hmode, hroute⟩, hpivots⟩ := (hclean.1 _ hrelation hloaded).2 collection hmany
      subst hmode
      have hprepared := Edit.quiet_preparePivots hsave
        (fun pivot hpivot => (hpivots pivot (hattached ▸ hpivot)).2)
        (Entity.get?_of_requireKey hkey).1
        (fun pivot hpivot => hroute.joined pivot (hattached ▸ hpivot))
      refine quiet_bind hprepared ?_
      rintro - pivots hsettles
      -- the pivots as they are now belong to an owner that still has nothing to write
      obtain ⟨prepared, hprepared⟩ : ∃ prepared, prepared =
          owner.setRelation route.name (.many ⟨collection.model, pivots⟩) := ⟨_, rfl⟩
      have hprepare : owner.Settles db prepared :=
        hprepared ▸ Entity.settles_setRelation hmany (fun _ _ => ⟨collection, rfl⟩) hsettles
      have hloads : ∀ other, prepared.isLoaded other = owner.isLoaded other := fun other =>
        hprepared ▸ Entity.isLoaded_setRelation (Entity.isLoaded_of_relation? hmany) other _
      have hpivotsNow : prepared.relation? route.name = some (.many ⟨collection.model, pivots⟩) := by
        rw [hprepared, Entity.relation?_setRelation, if_pos rfl]
      have hvalueNow : prepared.get? route.sourceKey = some value := by
        rw [hprepared]
        exact hvalue
      have hrelationNow := hrelation
      have hrouteNow := hparts.1
      rw [← hprepare.model] at hrelationNow hrouteNow
      have hcleanNow := (hprepare.clean _ hclean).1 _ hrelationNow ((hloads through).trans hloaded)
      have hpivotsClean := (hcleanNow.2 _ hpivotsNow).1.2
      refine quiet_mono (Edit.quiet_diffPivots hrouteNow hschema hpivotsClean hvalueNow hnull
        hpivotsNow) fun _ pivots' hadopt => ?_
      rw [hprepared, Entity.setRelation_setRelation, ← hprepared] at hadopt
      exact Entity.settles_trans hprepare hadopt
  next => exact quiet_pure (Entity.settles_refl db owner)

theorem quiet_save {name : String} {relation : Relation}
    (hrelation : db.registry.relation owner.model name = .ok relation)
    (hclean : owner.Clean db (.cons name below .nil))
    (hsave : ∀ related, related.Clean db below → saveBelow.Quiet related fun _ related' =>
      related.Settles db related') :
    (relation.save db saveBelow).Quiet owner fun _ owner' => owner.Settles db owner' := by
  unfold Relation.save
  refine quiet_subject_bind ?_
  split
  next hloaded =>
      cases relation with
      | tie t =>
          obtain ⟨htie, hbelow⟩ := hclean.1 _ hrelation hloaded
          exact Tie.quiet_save hsave (fun _ _ hsettles => hsettles.clean below) htie hbelow
      | through own correlate route far mode =>
          exact quiet_saveThrough hrelation hloaded hclean hsave
  next => exact quiet_pure (Entity.settles_refl db owner)

end Relation

namespace Database

theorem quiet_saveWith {branchesOf : String → Attempt (List Branch)} {tree : EmbedTree}
    {entity : Entity} (hclean : entity.Clean db tree)
    (h : ∀ branches, branchesOf entity.model = .ok branches → ∀ branch ∈ branches, ∀ current,
      current.model = entity.model → current.Clean db tree →
        (branch.save db).Quiet current fun _ later => current.Settles db later) :
    (db.saveWith branchesOf).Quiet entity fun _ later => entity.Settles db later := by
  unfold saveWith
  refine quiet_subject_bind (quiet_lift_bind fun branches hbranches => ?_)
  have hstep : ∀ branch ∈ branches, ∀ current, entity.Settles db current →
      (branch.save db).Quiet current fun _ later => entity.Settles db later := by
    intro branch hbranch current hsettles
    exact quiet_mono (h branches hbranches branch hbranch current hsettles.model
      (hsettles.clean tree hclean)) fun _ _ hlater => Entity.settles_trans hsettles hlater
  have hsteps : ∀ (chosen : Branch → Bool) current, entity.Settles db current →
      (inOrder ((branches.filter chosen).map (Branch.save db))).Quiet current
        fun _ later => entity.Settles db later := by
    intro chosen current hsettles
    refine quiet_inOrder (fun step hmem => ?_) hsettles
    obtain ⟨branch, hbranch, rfl⟩ := List.mem_map.mp hmem
    exact hstep branch (List.mem_filter.mp hbranch).1
  refine quiet_bind (hsteps _ entity (Entity.settles_refl db entity)) fun _ current hsettles => ?_
  have hsettled : current.IsSettled db :=
    Entity.isSettled_of_clean (hsettles.clean tree hclean)
  refine quiet_bind (quiet_persist hsettled) ?_
  rintro - later rfl
  exact hsteps _ later hsettles

theorem quiet_branch {tree : EmbedTree} {model : String} {branches : List Branch}
    (h : db.branches tree model = .ok branches) : ∀ branch ∈ branches, ∀ entity : Entity,
      entity.model = model → entity.Clean db tree →
        (branch.save db).Quiet entity fun _ later => entity.Settles db later := by
  induction tree generalizing model branches with
  | nil =>
      intro branch hbranch
      cases h
      cases hbranch
  | cons name below rest ihBelow ihRest =>
      obtain ⟨relation, others, hrelation, hothers, rfl⟩ := branches_cons.mp h
      intro branch hbranch entity hmodel hclean
      cases hbranch with
      | head =>
          rw [← hmodel] at hrelation
          refine Relation.quiet_save hrelation ⟨hclean.1, Entity.isSettled_of_clean hclean.2⟩ ?_
          intro related hrelated
          exact quiet_saveWith hrelated fun _ hbranches => ihBelow hbranches
      | tail _ hbranch => exact ihRest hothers branch hbranch entity hmodel hclean.2

/-- A save of what agrees with the stored rows only reads, and what it leaves agrees with them. -/
theorem quiet_save {tree : EmbedTree} {entity : Entity} (hclean : entity.Clean db tree) :
    (db.save tree).Quiet entity fun _ later => entity.Settles db later :=
  quiet_saveWith hclean fun _ hbranches => quiet_branch hbranches

end Database

end RecordMapper
