import RecordMapper.Proofs.Session.Cascade
import RecordMapper.Proofs.Session.Persisting
import RecordMapper.Proofs.Session.Shapes

/-!
# Saving data of the right shapes

A save reads a slot as a single entity or as a collection.  Over routes whose pivots are a collection
and whose pivots lead to a single far entity each, it finds in every slot what it looks for.
-/

namespace RecordMapper

open Edit

/-- The data of the relation are read as they are attached.  A route calls for a collection of pivots,
and each pivot for a single far entity. -/
def Relation.IsReadable : Relation → Prop
  | .tie _ => True
  | .through _ _ route far _ => route.kind = .hasMany ∧ far.isMany = false

namespace Registry

/-- All relations of a tree are readable. -/
def ReadsTree (registry : Registry) : EmbedTree → String → Prop
  | .nil, _ => True
  | .cons name below rest, model =>
      (∀ relation, registry.relation model name = .ok relation →
        relation.IsReadable ∧ ReadsTree registry below relation.target) ∧
      ReadsTree registry rest model

end Registry

/-- The slot of a relation holds data of its shape, if it holds any, and `inner` is true of all
entities in it. -/
def Entity.SlotFits (entity : Entity) (relation : Relation) (inner : Entity → Prop) : Prop :=
  ∀ related, entity.relation? relation.name = some related →
    related.Suits relation ∧ ∀ found ∈ related.entities, inner found

/-- A condition on entities that says at least that a slot fits, and that lasts while it does. -/
structure Carries (relation : Relation) (inner before : Entity → Prop) : Prop where
  slot : ∀ entity, before entity → entity.SlotFits relation inner
  set : ∀ entity related, before entity → related.Suits relation →
    (∀ found ∈ related.entities, inner found) → before (entity.setRelation relation.name related)

/-- A condition on entities that does not depend on their values. -/
def IgnoresValues (before : Entity → Prop) : Prop :=
  ∀ entity entity' : Entity, entity'.model = entity.model →
    entity'.relations = entity.relations → before entity → before entity'

theorem carries_slotFits (relation : Relation) (inner : Entity → Prop) :
    Carries relation inner fun entity => entity.SlotFits relation inner where
  slot _ h := h
  set entity related _ hsuits hfound held hheld := by
    rw [Entity.relation?_setRelation, if_pos rfl] at hheld
    cases hheld
    exact ⟨hsuits, hfound⟩

theorem ignoresValues_slotFits (relation : Relation) (inner : Entity → Prop) :
    IgnoresValues fun entity => entity.SlotFits relation inner := by
  intro entity entity' _ hrelations h related hrelated
  rw [Entity.relation?_of_relations hrelations] at hrelated
  exact h related hrelated

namespace Registry

variable {registry : Registry} {model : String}

theorem carries_shapes {relation : Relation}
    (h : registry.relation model relation.name = .ok relation) :
    Carries relation (registry.Shapes relation.target) (registry.Shapes model) where
  slot _ hentity _ hrelated := hentity.slot h hrelated
  set _ _ hentity hsuits hfound := hentity.setRelation h hsuits hfound

theorem ignoresValues_shapes (registry : Registry) (model : String) :
    IgnoresValues (registry.Shapes model) :=
  fun _ _ hmodel hrelations h => h.of_relations hmodel hrelations

end Registry

/-! ## Slots -/

namespace Related

variable {related : Related} {relation : Relation}

theorem exists_one_of_suits (h : related.Suits relation) (hsingle : relation.isMany = false) :
    ∃ found, related = .one found := by
  cases relation with
  | through name correlate route far mode => cases hsingle
  | tie tie =>
      cases related with
      | one found => exact ⟨found, rfl⟩
      | many collection =>
          rw [Relation.isMany, beq_eq_false_iff_ne] at hsingle
          exact absurd h hsingle
      | through => exact h.elim

theorem exists_many_of_suits {tie : Tie} (h : related.Suits (.tie tie)) (hkind : tie.kind = .hasMany) :
    ∃ collection, related = .many collection := by
  cases related with
  | one found => exact absurd hkind h
  | many collection => exact ⟨collection, rfl⟩
  | through => exact h.elim

end Related

namespace Entity

variable {entity : Entity} {name : String}

theorem shapeSafe_one
    (h : ∀ related, entity.relation? name = some related → ∃ found, related = .one found) :
    ShapeSafe (entity.one name) := by
  unfold one relation
  cases hslot : entity.relation? name with
  | none => exact FailsAs.error_iff.mpr rfl
  | some related =>
      obtain ⟨found, rfl⟩ := h related hslot
      exact FailsAs.ok found

theorem shapeSafe_many
    (h : ∀ related, entity.relation? name = some related →
      ∃ collection, related = .many collection) : ShapeSafe (entity.many name) := by
  unfold many relation
  cases hslot : entity.relation? name with
  | none => exact FailsAs.error_iff.mpr rfl
  | some related =>
      obtain ⟨collection, rfl⟩ := h related hslot
      exact FailsAs.ok collection

end Entity

namespace Edit

variable {σ τ α β : Type}

theorem safe_within {before : σ → Prop} {after : α → σ → Prop} {inner : τ → Prop}
    {innerAfter : α → τ → Prop} {part : τ} {put : τ → σ → σ} {edit : Edit τ α} (hpart : inner part)
    (hedit : edit.Safe inner innerAfter)
    (hput : ∀ s a t, before s → innerAfter a t → after a (put t s)) :
    (within part put edit).Safe before after := by
  intro s log hs
  obtain ⟨hresult, hafter⟩ := hedit part log hpart
  exact ⟨hresult, fun a ha => hput s a _ hs (hafter a ha)⟩

theorem safe_onOne {relation : Relation} {before inner : Entity → Prop} {edit : Edit Entity α}
    (hcarries : Carries relation inner before) (hsingle : relation.isMany = false)
    (hedit : edit.Safe inner fun _ => inner) :
    (onOne relation.name edit).Safe before fun _ => before := by
  unfold onOne
  refine safe_subject_bind fun owner howner => ?_
  have hslot := hcarries.slot owner howner
  refine safe_lift_bind (Entity.shapeSafe_one fun related hrelated =>
    Related.exists_one_of_suits (hslot related hrelated).1 hsingle) fun found hone => ?_
  obtain ⟨hsuits, hfound⟩ := hslot _ (Entity.relation?_of_one hone)
  cases found with
  | none => exact safe_pure fun s hs => hs
  | some related =>
      refine safe_map (safe_within (hfound related List.mem_cons_self) hedit ?_)
      intro s a changed hs hchanged
      refine hcarries.set s _ hs ?_ (by simpa [Related.entities] using hchanged)
      cases relation with
      | tie tie => exact hsuits
      | through name correlate route far mode => cases hsingle

theorem safe_onMany {tie : Tie} {before inner : Entity → Prop} {edit : Edit (List Entity) α}
    (hcarries : Carries (.tie tie) inner before) (hkind : tie.kind = .hasMany)
    (hedit : edit.Safe (∀ found ∈ ·, inner found)
      fun _ entities => ∀ found ∈ entities, inner found) :
    (onMany tie.name edit).Safe before fun _ => before := by
  unfold onMany
  refine safe_subject_bind fun owner howner => ?_
  have hslot := hcarries.slot owner howner
  refine safe_lift_bind (Entity.shapeSafe_many fun related hrelated =>
    Related.exists_many_of_suits (hslot related hrelated).1 hkind) fun collection hmany => ?_
  obtain ⟨-, hfound⟩ := hslot _ (Entity.relation?_of_many hmany)
  refine safe_within hfound hedit fun s a entities hs hentities => ?_
  exact hcarries.set s _ hs hkind hentities

theorem safe_forEach {edit : Edit τ α} {inner : τ → Prop} (h : edit.Safe inner fun _ => inner) :
    (forEach edit).Safe (∀ item ∈ ·, inner item) fun _ items => ∀ item ∈ items, inner item := by
  intro items
  induction items with
  | nil => exact fun log hitems => ⟨FailsAs.ok [], fun _ _ => hitems⟩
  | cons item rest ih =>
      intro log hitems
      rw [List.forall_mem_cons] at hitems
      obtain ⟨hresult, hinner⟩ := h item log hitems.1
      rcases hrun : edit item log with ⟨result, item', sent⟩
      rw [hrun] at hresult hinner
      rw [forEach, hrun]
      cases result with
      | error error => exact ⟨FailsAs.of_error hresult, fun _ h => by cases h⟩
      | ok a =>
          obtain ⟨hresults, hrest⟩ := ih sent hitems.2
          dsimp only
          cases hothers : (forEach edit rest sent).result with
          | error error =>
              rw [hothers] at hresults
              exact ⟨FailsAs.of_error hresults, fun _ h => by cases h⟩
          | ok results =>
              refine ⟨FailsAs.ok _, fun _ _ => ?_⟩
              exact List.forall_mem_cons.mpr ⟨hinner a rfl, hrest results hothers⟩

theorem safe_forEachWith {edit : β → Edit τ Unit} {inner : τ → Prop}
    (h : ∀ b, (edit b).Safe inner fun _ => inner) (others : List β) :
    (forEachWith edit others).Safe (∀ item ∈ ·, inner item)
      fun _ items => ∀ item ∈ items, inner item := by
  intro items
  induction items generalizing others with
  | nil => cases others <;> exact fun log hitems => ⟨FailsAs.ok (), fun _ _ => hitems⟩
  | cons item rest ih =>
      cases others with
      | nil => exact fun log hitems => ⟨FailsAs.ok (), fun _ _ => hitems⟩
      | cons b others =>
          intro log hitems
          rw [List.forall_mem_cons] at hitems
          obtain ⟨hresult, hinner⟩ := h b item log hitems.1
          rcases hrun : edit b item log with ⟨result, item', sent⟩
          rw [hrun] at hresult hinner
          rw [forEachWith, hrun]
          cases result with
          | error error => exact ⟨hresult, fun _ h => by cases h⟩
          | ok _ =>
              obtain ⟨hresults, hrest⟩ := ih others sent hitems.2
              refine ⟨hresults, fun _ hothers => ?_⟩
              exact List.forall_mem_cons.mpr ⟨hinner () rfl, hrest () hothers⟩

theorem safe_inOrder {before : σ → Prop} {steps : List (Edit σ Unit)}
    (h : ∀ step ∈ steps, step.Safe before fun _ => before) :
    (inOrder steps).Safe before fun _ => before := by
  induction steps with
  | nil => exact safe_pure fun s hs => hs
  | cons step rest ih =>
      rw [List.forall_mem_cons] at h
      exact safe_bind h.1 fun _ => ih h.2

end Edit

/-! ## Writing entities -/

namespace Database

variable {before : Entity → Prop}

theorem safe_persist (db : Database) (hbefore : IgnoresValues before) :
    db.persist.Safe before fun _ => before := by
  have hstored : ∀ entity : Entity, before entity → before entity.markStored :=
    fun entity h => hbefore entity _ rfl rfl h
  unfold persist
  refine safe_subject_bind fun entity _ => ?_
  refine safe_lift_bind (db.registry.shapeSafe_schema entity.model) fun schema _ => ?_
  split
  · unfold update
    dsimp only
    split
    · exact safe_pure fun s hs => hs
    · refine safe_lift_bind (entity.shapeSafe_storedKey _ _) fun id _ => ?_
      refine safe_bind (db.safe_execute (Update.writes_render _ _)) fun _ => ?_
      exact safe_modify hstored
  · unfold insert
    refine safe_bind (db.safe_execute (Insert.writes_render _ _)) fun _ => ?_
    have hgiven : (db.lastInsertId? : Edit Entity (Option Value)).Safe before fun _ => before :=
      fun s log hs => ⟨FailsAs.ok _, fun _ _ => hs⟩
    refine safe_bind hgiven fun given => safe_modify fun current hcurrent => ?_
    refine hstored _ (hbefore current _ ?_ ?_ hcurrent)
    · exact schema.withGivenKey_model given current
    · exact schema.withGivenKey_relations given current

theorem safe_saveWith {db : Database} {model : String}
    {branchesOf : String → Attempt (List Branch)} (hmodel : ∀ s, before s → s.model = model)
    (hbefore : IgnoresValues before) (hsafe : ShapeSafe (branchesOf model))
    (hbranches : ∀ branches, branchesOf model = .ok branches → ∀ branch ∈ branches,
      (branch.save db).Safe before fun _ => before) :
    (db.saveWith branchesOf).Safe before fun _ => before := by
  unfold saveWith
  refine safe_subject_bind fun entity hentity => ?_
  rw [hmodel entity hentity]
  refine safe_lift_bind hsafe fun branches hresolved => ?_
  have hsteps : ∀ chosen : Branch → Bool, ∀ step ∈ (branches.filter chosen).map (Branch.save db),
      step.Safe before fun _ => before := by
    intro chosen
    rw [List.forall_mem_map]
    exact fun branch hbranch =>
      hbranches branches hresolved branch (List.mem_of_mem_filter hbranch)
  refine safe_bind (safe_inOrder (hsteps _)) fun _ => ?_
  refine safe_bind (db.safe_persist hbefore) fun _ => ?_
  exact safe_inOrder (hsteps _)

end Database

/-- The edit finds data of the right shapes in the slots of an entity of a model, and leaves such
data in them. -/
abbrev Database.SavesSafely (db : Database) (model : String) (save : Edit Entity Unit) : Prop :=
  save.Safe (db.registry.Shapes model) fun _ => db.registry.Shapes model

theorem safe_save_requireKey {db : Database} {model : String} {save : Edit Entity Unit}
    (hsave : db.SavesSafely model save) (key target name : String) :
    (do save
        (← Edit.subject).requireKey key target name : Edit Entity Value).Safe
      (db.registry.Shapes model) fun _ => db.registry.Shapes model :=
  safe_bind hsave fun _ => safe_subject_bind fun related _ =>
    safe_lift (related.shapeSafe_requireKey key target name)

/-! ## Saving ties -/

namespace Tie

variable {db : Database} {tie : Tie} {model : String} {save : Edit Entity Unit}

theorem safe_saveBelongsTo (htie : db.registry.relation model tie.name = .ok (.tie tie))
    (hkind : tie.kind ≠ .hasMany) (hsave : db.SavesSafely tie.target save) :
    db.SavesSafely model (tie.saveBelongsTo save) := by
  have hsingle : (Relation.tie tie).isMany = false := beq_eq_false_iff_ne.mpr hkind
  refine safe_bind (safe_onOne (Registry.carries_shapes htie) hsingle
    (safe_save_requireKey hsave _ _ _)) fun saved => ?_
  cases saved with
  | none => exact safe_pure fun s hs => hs
  | some key => exact safe_modify fun owner howner => howner.of_relations rfl rfl

theorem safe_saveHasOne (htie : db.registry.relation model tie.name = .ok (.tie tie))
    (hkind : tie.kind ≠ .hasMany) (hsave : db.SavesSafely tie.target save) :
    db.SavesSafely model (tie.saveHasOne save) := by
  have hsingle : (Relation.tie tie).isMany = false := beq_eq_false_iff_ne.mpr hkind
  refine safe_subject_bind fun owner _ => ?_
  refine safe_lift_bind (owner.shapeSafe_requireKey _ _ _) fun ownerKey _ => ?_
  refine safe_bind (safe_onOne (Registry.carries_shapes htie) hsingle ?_) fun _ =>
    safe_pure fun s hs => hs
  exact safe_modify_bind (fun child hchild => hchild.of_relations rfl rfl) hsave

theorem safe_saveChild (ownerKey : Value) (childKey : String)
    (hsave : db.SavesSafely tie.target save) :
    (tie.saveChild ownerKey childKey save).Safe (db.registry.Shapes tie.target)
      fun _ => db.registry.Shapes tie.target := by
  refine safe_modify_bind (fun child hchild => hchild.of_relations rfl rfl) ?_
  exact safe_bind hsave fun _ => safe_subject_bind fun child _ => safe_pure fun s hs => hs

theorem safe_deleteMissing (db : Database) (target : Schema) (ids : List Value)
    {before : Entity → Prop} : (deleteMissing db target ids).Safe before fun _ => before := by
  unfold deleteMissing
  split
  · exact safe_pure fun s hs => hs
  · exact safe_bind (db.safe_execute (Delete.writes_render _ _)) fun _ => safe_pure fun s hs => hs

theorem safe_saveHasMany (htie : db.registry.relation model tie.name = .ok (.tie tie))
    (hkind : tie.kind = .hasMany) (hsave : db.SavesSafely tie.target save) :
    db.SavesSafely model (tie.saveHasMany db save) := by
  refine safe_subject_bind fun owner _ => ?_
  refine safe_lift_bind (owner.shapeSafe_requireKey _ _ _) fun ownerKey _ => ?_
  refine safe_lift_bind (db.registry.shapeSafe_schema _) fun target _ => ?_
  refine safe_lift_bind (db.shapeSafe_checkKey _ _ _) fun _ _ => ?_
  refine safe_lift_bind (owner.shapeSafe_matchCondition _) fun related _ => ?_
  refine safe_bind (db.safe_execute (Select.writes_render _ _)) fun stored => ?_
  refine safe_bind ?_ fun present => safe_deleteMissing db target _
  exact safe_onMany (Registry.carries_shapes htie) hkind (safe_forEach (safe_saveChild _ _ hsave))

theorem safe_save (htie : db.registry.relation model tie.name = .ok (.tie tie))
    (hsave : db.SavesSafely tie.target save) : db.SavesSafely model (tie.save db save) := by
  unfold Tie.save
  split
  next hkind => exact safe_saveBelongsTo htie (by simp [hkind]) hsave
  next hkind => exact safe_saveHasOne htie (by simp [hkind]) hsave
  next hkind => exact safe_saveHasMany htie hkind hsave

end Tie

/-! ## Saving through a pivot -/

namespace Edit

variable {db : Database} {route : Tie} {far : Relation} {saveFar : Edit Entity Unit}

theorem safe_preparePivot (hfar : db.registry.relation route.target far.name = .ok far)
    (hsingle : far.isMany = false) (ownerKey : Value) (hsave : db.SavesSafely far.target saveFar) :
    db.SavesSafely route.target (preparePivot route far ownerKey saveFar) := by
  have hset : ∀ (key : String) (value : Value), db.SavesSafely route.target
      (modify fun pivot => pivot.set key value) := fun key value =>
    safe_modify fun pivot hpivot => hpivot.of_relations rfl rfl
  refine safe_subject_bind fun pivot _ => ?_
  split
  · refine safe_bind (safe_onOne (Registry.carries_shapes hfar) hsingle
      (safe_save_requireKey hsave _ _ _)) fun saved => ?_
    cases saved with
    | none => exact hset _ _
    | some key => exact safe_bind (hset _ _) fun _ => hset _ _
  · exact hset _ _

variable {inner : Entity → Prop}

theorem safe_insertPivot (db : Database) (key : Option String) (hinner : IgnoresValues inner) :
    (insertPivot db key).Safe inner fun _ => inner := by
  exact safe_modify_bind (fun pivot hpivot => hinner pivot _ rfl rfl hpivot)
    (db.safe_persist hinner)

theorem safe_settlePivot (db : Database) (key : Option String) (row : Option Row)
    (hinner : IgnoresValues inner) : (settlePivot db key row).Safe inner fun _ => inner := by
  refine safe_modify_bind (fun pivot hpivot => ?_) (db.safe_persist hinner)
  cases row with
  | some row => exact hinner pivot _ rfl rfl hpivot
  | none =>
      dsimp only
      split
      · exact hinner pivot _ rfl rfl hpivot
      · exact hpivot

theorem safe_flushPivots (db : Database) (pivot : Schema) (owned : Condition)
    (hinner : IgnoresValues inner) : (flushPivots db pivot owned).Safe (∀ found ∈ ·, inner found)
      fun _ pivots => ∀ found ∈ pivots, inner found := by
  refine safe_bind (db.safe_execute (Delete.writes_render _ _)) fun _ => ?_
  exact safe_bind (safe_forEach (safe_insertPivot db _ hinner)) fun _ => safe_pure fun s hs => hs

theorem safe_deleteStale (db : Database) (pivot : Schema) (stale : List Row)
    {before : List Entity → Prop} : (deleteStale db pivot stale).Safe before fun _ => before := by
  unfold deleteStale
  split
  · exact safe_pure fun s hs => hs
  · exact safe_bind (db.safe_execute (Delete.writes_render _ _)) fun _ => safe_pure fun s hs => hs

theorem safe_diffPivots (db : Database) (pivot : Schema) (farKey : String) (owned : Condition)
    (hinner : IgnoresValues inner) :
    (diffPivots db pivot farKey owned).Safe (∀ found ∈ ·, inner found)
      fun _ pivots => ∀ found ∈ pivots, inner found := by
  refine safe_bind (db.safe_execute (Select.writes_render _ _)) fun rows => ?_
  refine safe_lift_bind (FailsAs.mapM fun row _ => pivot.shapeSafe_castRow row) fun stored _ => ?_
  refine safe_subject_bind fun pivots _ => ?_
  refine safe_bind (safe_forEachWith (fun row => safe_settlePivot db _ row hinner) _) fun _ => ?_
  exact safe_deleteStale db pivot _

end Edit

namespace Relation

variable {db : Database} {model : String} {save : Edit Entity Unit}

theorem safe_saveThrough {before inner : Entity → Prop} {route : Tie} {far : Relation}
    (mode : PivotMode) (hcarries : Carries (.tie route) inner before) (hkind : route.kind = .hasMany)
    (hinner : IgnoresValues inner)
    (hprepare : ∀ ownerKey, (preparePivot route far ownerKey save).Safe inner fun _ => inner) :
    (saveThrough db route far mode save).Safe before fun _ => before := by
  refine safe_subject_bind fun owner _ => ?_
  split
  · refine safe_lift_bind (owner.shapeSafe_requireKey _ _ _) fun ownerKey _ => ?_
    refine safe_lift_bind (db.registry.shapeSafe_schema _) fun pivot _ => ?_
    refine safe_lift_bind (owner.shapeSafe_matchCondition _) fun owned _ => ?_
    refine safe_onMany hcarries hkind (safe_bind (safe_forEach (hprepare ownerKey)) fun _ => ?_)
    cases mode with
    | flush => exact safe_flushPivots db pivot owned hinner
    | diff => exact safe_diffPivots db pivot far.sourceKey owned hinner
  · exact safe_pure fun s hs => hs

theorem safe_save {relation : Relation} (hreadable : relation.IsReadable)
    (hrelation : db.registry.relation model relation.name = .ok relation)
    (hsave : db.SavesSafely relation.target save) :
    db.SavesSafely model (relation.save db save) := by
  refine safe_subject_bind fun owner _ => ?_
  split
  · cases relation with
    | tie tie => exact Tie.safe_save hrelation hsave
    | through name correlate route far mode =>
        obtain ⟨hroute, hfar⟩ := Registry.parts_of_relation hrelation
        exact safe_saveThrough mode (Registry.carries_shapes hroute) hreadable.1
          (db.registry.ignoresValues_shapes route.target)
          fun ownerKey => safe_preparePivot hfar hreadable.2 ownerKey hsave
  · exact safe_pure fun s hs => hs

end Relation

/-! ## Cascades -/

namespace Database

variable {db : Database}

theorem shapeSafe_branches (db : Database) (tree : EmbedTree) (model : String) :
    ShapeSafe (db.branches tree model) := by
  induction tree generalizing model with
  | nil => exact FailsAs.ok []
  | cons name below rest _ ihRest =>
      rw [branches]
      simp [db.registry.shapeSafe_relation, ihRest]

/-- A cascade over readable relations finds in every slot what it looks for. -/
theorem safe_save (tree : EmbedTree) {model : String} (h : db.registry.ReadsTree tree model) :
    db.SavesSafely model (db.save tree) := by
  suffices hbranches : ∀ branches, db.branches tree model = .ok branches → ∀ branch ∈ branches,
      db.SavesSafely model (branch.save db) from
    safe_saveWith (fun s hs => hs.model) (db.registry.ignoresValues_shapes model)
      (db.shapeSafe_branches tree model) hbranches
  induction tree generalizing model with
  | nil =>
      intro branches hnone
      cases hnone
      exact nofun
  | cons name below rest ihBelow ihRest =>
      intro branches hbranches
      obtain ⟨relation, others, hrelation, hothers, rfl⟩ := branches_cons.mp hbranches
      obtain ⟨hreadable, hbelow⟩ := h.1 relation hrelation
      rw [List.forall_mem_cons]
      refine ⟨?_, ihRest h.2 others hothers⟩
      have hname : relation.name = name := Registry.name_of_relation hrelation
      rw [← hname] at hrelation
      refine Relation.safe_save hreadable hrelation ?_
      exact safe_saveWith (fun s hs => hs.model) (db.registry.ignoresValues_shapes relation.target)
        (db.shapeSafe_branches below relation.target) (ihBelow hbelow)

end Database

end RecordMapper
