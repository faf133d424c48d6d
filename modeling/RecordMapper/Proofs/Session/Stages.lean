import RecordMapper.Proofs.Session.Children
import RecordMapper.Proofs.Session.LoadedPaths
import RecordMapper.Proofs.Session.Persisting

/-!
# The stages of a save

A save that succeeds writes first what an entity belongs to, then the entity, and then all other
relations.  The parents give their keys to the entity, and the entity gives its own to its children
and pivots; what comes after the entity does not change its record any more.
-/

namespace RecordMapper

open Edit

namespace Entity

/-- The entities have one record, and they differ only in what is attached under some names. -/
structure SameOutside (names : List String) (entity entity' : Entity) : Prop where
  model : entity'.model = entity.model
  fields : entity'.fields = entity.fields
  snapshot : entity'.snapshot = entity.snapshot
  relations : ∀ name, name ∉ names → entity'.relation? name = entity.relation? name

theorem sameOutside_refl (names : List String) (entity : Entity) : entity.SameOutside names entity :=
  ⟨rfl, rfl, rfl, fun _ _ => rfl⟩

theorem sameOutside_mono {names names' : List String} {entity entity' : Entity}
    (h : entity.SameOutside names entity') (hnames : names ⊆ names') :
    entity.SameOutside names' entity' :=
  ⟨h.model, h.fields, h.snapshot, fun name hname => h.relations name fun hmem => hname (hnames hmem)⟩

theorem sameOutside_setRelation (entity : Entity) (name : String) (related : Related) :
    entity.SameOutside [name] (entity.setRelation name related) := by
  refine ⟨rfl, rfl, rfl, fun other hother => ?_⟩
  rw [relation?_setRelation, if_neg (by simpa using hother)]

theorem attached_of_not_loaded {entity : Entity} {name : String}
    (h : entity.isLoaded name = false) : entity.attached name = [] := by
  have hnone : entity.relation? name = none := by simpa [isLoaded] using h
  rw [attached, hnone]

end Entity

/-! ## Keys that are copied -/

theorem Edit.run_onOne_requireKey {name targetKey target : String} {save : Edit Entity Unit}
    {owner owner' : Entity} {saved : Option Value} {log log' : Log}
    (h : (onOne name do
      save
      (← Edit.subject).requireKey targetKey target name) owner log = ⟨.ok saved, owner', log'⟩) :
    (owner.attached name = [] ∧ saved = none ∧ owner' = owner ∧ log' = log) ∨
      ∃ related related' key, owner.attached name = [related] ∧
        save related log = ⟨.ok (), related', log'⟩ ∧
        related'.get? targetKey = some key ∧ key.isNull = false ∧ saved = some key ∧
        owner' = owner.setRelation name (.one (some related')) := by
  rcases run_onOne h with ⟨hnone, rfl, rfl, rfl⟩ | ⟨related, key, related', hone, hedit, rfl, rfl⟩
  · exact .inl ⟨Entity.attached_of_relation? (Entity.relation?_of_one hnone), rfl, rfl, rfl⟩
  · obtain ⟨_, middle, sent, hsave, hrequire⟩ := run_bind hedit
    have hlift := run_subject_bind hrequire
    obtain ⟨hkey, rfl, rfl⟩ := run_lift hlift
    obtain ⟨hget, hnull⟩ := Entity.get?_of_requireKey hkey
    exact .inr ⟨related, related', key,
      Entity.attached_of_relation? (Entity.relation?_of_one hone), hsave, hget, hnull, rfl, rfl⟩

namespace Tie

variable {db : Database} {tie : Tie} {save : Edit Entity Unit} {owner owner' : Entity}
  {log log' : Log}

theorem run_saveBelongsTo (h : tie.saveBelongsTo save owner log = ⟨.ok (), owner', log'⟩) :
    (owner.attached tie.name = [] ∧ owner' = owner ∧ log' = log) ∨
      ∃ related related' key, owner.attached tie.name = [related] ∧
        save related log = ⟨.ok (), related', log'⟩ ∧
        related'.get? tie.targetKey = some key ∧ key.isNull = false ∧
        owner' = (owner.setRelation tie.name (.one (some related'))).set tie.sourceKey key := by
  unfold saveBelongsTo at h
  obtain ⟨saved, middle, sent, hone, hset⟩ := run_bind h
  rcases run_onOne_requireKey hone with ⟨hnone, rfl, rfl, rfl⟩ |
    ⟨related, related', key, hsome, hsave, hkey, hnull, rfl, rfl⟩
  · obtain ⟨-, rfl, rfl⟩ := run_pure hset
    exact .inl ⟨hnone, rfl, rfl⟩
  · cases hset
    exact .inr ⟨related, related', key, hsome, hsave, hkey, hnull, rfl⟩

def SavesChildren (tie : Tie) (save : Edit Entity Unit) (ownerKey : Value)
    (children children' : List Entity) : Prop :=
  List.Forall₂ (fun child child' => ∃ log log',
    save (child.set tie.targetKey ownerKey) log = ⟨.ok (), child', log'⟩) children children'

theorem run_saveHasOne (h : tie.saveHasOne save owner log = ⟨.ok (), owner', log'⟩) :
    ∃ ownerKey, owner.get? tie.sourceKey = some ownerKey ∧ ownerKey.isNull = false ∧
      owner.SameOutside [tie.name] owner' ∧
      tie.SavesChildren save ownerKey (owner.attached tie.name) (owner'.attached tie.name) := by
  unfold saveHasOne at h
  obtain ⟨ownerKey, hkey, hone⟩ := run_lift_bind (run_subject_bind h)
  obtain ⟨hget, hnull⟩ := Entity.get?_of_requireKey hkey
  obtain ⟨found, middle, sent, hone, hpure⟩ := run_bind hone
  obtain ⟨-, rfl, rfl⟩ := run_pure hpure
  rcases run_onOne hone with ⟨hnone, -, rfl, -⟩ | ⟨child, _, child', hchild, hedit, -, rfl⟩
  · refine ⟨ownerKey, hget, hnull, Entity.sameOutside_refl _ _, ?_⟩
    rw [Entity.attached_of_relation? (Entity.relation?_of_one hnone)]
    exact .nil
  · refine ⟨ownerKey, hget, hnull, Entity.sameOutside_setRelation _ _ _, ?_⟩
    rw [Entity.attached_of_relation? (Entity.relation?_of_one hchild),
      Entity.attached_setRelation_self]
    exact .cons ⟨_, _, run_modify_bind hedit⟩ .nil

theorem run_saveHasMany (h : tie.saveHasMany db save owner log = ⟨.ok (), owner', log'⟩) :
    ∃ ownerKey, owner.get? tie.sourceKey = some ownerKey ∧ ownerKey.isNull = false ∧
      owner.SameOutside [tie.name] owner' ∧
      tie.SavesChildren save ownerKey (owner.attached tie.name) (owner'.attached tie.name) := by
  obtain ⟨run⟩ := ChildrenRun.exists_of_run h
  obtain ⟨hget, hnull⟩ := Entity.get?_of_requireKey run.requireKey
  refine ⟨run.ownerKey, hget, hnull, ?_, ?_⟩
  · rw [run.subject]
    exact Entity.sameOutside_setRelation _ _ _
  · have hbefore : owner.attached tie.name = run.before.entities :=
      Entity.attached_of_relation? (Entity.relation?_of_many run.many)
    have hafter : owner'.attached tie.name = run.after :=
      Entity.attached_of_relation? (Entity.relation?_of_many run.many_after)
    rw [hbefore, hafter]
    refine run_forEach_forall₂ _ (fun child log _ child' log' hchild => ?_) run.children
    unfold saveChild at hchild
    obtain ⟨_, _, sent, hsave, hrest⟩ := run_bind (run_modify_bind hchild)
    have hpure := run_subject_bind hrest
    obtain ⟨-, rfl, -⟩ := run_pure hpure
    exact ⟨log, sent, hsave⟩

theorem run_save_children (hkind : tie.kind ≠ .belongsTo)
    (h : tie.save db save owner log = ⟨.ok (), owner', log'⟩) :
    ∃ ownerKey, owner.get? tie.sourceKey = some ownerKey ∧ ownerKey.isNull = false ∧
      owner.SameOutside [tie.name] owner' ∧
      tie.SavesChildren save ownerKey (owner.attached tie.name) (owner'.attached tie.name) := by
  unfold Tie.save at h
  cases hcases : tie.kind with
  | belongsTo => exact absurd hcases hkind
  | hasOne => rw [hcases] at h; exact run_saveHasOne h
  | hasMany => rw [hcases] at h; exact run_saveHasMany h

end Tie

namespace Edit

variable {route : Tie} {far : Relation} {ownerKey : Value} {saveFar : Edit Entity Unit}
  {pivot pivot' : Entity} {log log' : Log}

theorem run_preparePivot_cases
    (h : preparePivot route far ownerKey saveFar pivot log = ⟨.ok (), pivot', log'⟩) :
    (pivot.attached far.name = [] ∧ pivot' = pivot.set route.targetKey ownerKey ∧ log' = log) ∨
      ∃ related related' key, pivot.attached far.name = [related] ∧
        saveFar related log = ⟨.ok (), related', log'⟩ ∧
        related'.get? far.targetKey = some key ∧ key.isNull = false ∧
        pivot' = ((pivot.setRelation far.name (.one (some related'))).set far.sourceKey key).set
          route.targetKey ownerKey := by
  unfold preparePivot at h
  have hbranch := run_subject_bind h
  split at hbranch
  next hloaded =>
      obtain ⟨saved, middle, sent, hone, hset⟩ := run_bind hbranch
      rcases run_onOne_requireKey hone with ⟨hnone, rfl, rfl, rfl⟩ |
        ⟨related, related', key, hsome, hsave, hkey, hnull, rfl, rfl⟩
      · cases hset
        exact .inl ⟨hnone, rfl, rfl⟩
      · cases hset
        exact .inr ⟨related, related', key, hsome, hsave, hkey, hnull, rfl⟩
  next hloaded =>
      cases hbranch
      exact .inl ⟨Entity.attached_of_not_loaded (by simpa using hloaded), rfl, rfl⟩

end Edit

namespace Relation

variable {db : Database} {route : Tie} {far : Relation} {mode : PivotMode}
  {saveFar : Edit Entity Unit} {owner owner' : Entity} {log log' : Log}

def reconcile (db : Database) (mode : PivotMode) (pivot : Schema) (farKey : String)
    (owned : Condition) : Edit (List Entity) Unit :=
  match mode with
  | .flush => flushPivots db pivot owned
  | .diff => diffPivots db pivot farKey owned

theorem run_saveThrough
    (h : saveThrough db route far mode saveFar owner log = ⟨.ok (), owner', log'⟩) :
    (owner.isLoaded route.name = false ∧ owner' = owner ∧ log' = log) ∨
      ∃ ownerKey pivot owned collection results prepared cascade pivots,
        owner.requireKey route.sourceKey route.source route.name = .ok ownerKey ∧
        db.registry.schema route.target = .ok pivot ∧
        (Relation.tie route).matchCondition owner = .ok owned ∧
        owner.many route.name = .ok collection ∧
        forEach (preparePivot route far ownerKey saveFar) collection.entities log =
          ⟨.ok results, prepared, cascade⟩ ∧
        reconcile db mode pivot far.sourceKey owned prepared cascade = ⟨.ok (), pivots, log'⟩ ∧
        owner' = owner.setRelation route.name (.many ⟨collection.model, pivots⟩) := by
  unfold saveThrough at h
  have hbranch := run_subject_bind h
  split at hbranch
  next hloaded =>
      obtain ⟨ownerKey, hkey, hschema⟩ := run_lift_bind hbranch
      obtain ⟨pivot, hpivot, hmatch⟩ := run_lift_bind hschema
      obtain ⟨owned, howned, hmany⟩ := run_lift_bind hmatch
      obtain ⟨collection, pivots, hcollection, hpivots, howner⟩ := run_onMany hmany
      obtain ⟨results, prepared, cascade, hprepare, hreconcile⟩ := run_bind hpivots
      refine .inr ⟨ownerKey, pivot, owned, collection, results, prepared, cascade, pivots, hkey,
        hpivot, howned, hcollection, hprepare, ?_, howner⟩
      cases mode <;> exact hreconcile
  next hloaded =>
      obtain ⟨-, rfl, rfl⟩ := run_pure hbranch
      exact .inl ⟨by simpa using hloaded, rfl, rfl⟩

theorem run_save_belongsTo {tie : Tie} {saveBelow : Edit Entity Unit}
    (hkind : tie.kind = .belongsTo)
    (h : (Relation.tie tie).save db saveBelow owner log = ⟨.ok (), owner', log'⟩) :
    (owner.attached tie.name = [] ∧ owner' = owner ∧ log' = log) ∨
      ∃ related related' key, owner.attached tie.name = [related] ∧
        saveBelow related log = ⟨.ok (), related', log'⟩ ∧
        related'.get? tie.targetKey = some key ∧ key.isNull = false ∧
        owner' = (owner.setRelation tie.name (.one (some related'))).set tie.sourceKey key := by
  unfold save at h
  have hbranch := run_subject_bind h
  split at hbranch
  next hloaded =>
      simp only [Tie.save, hkind] at hbranch
      exact Tie.run_saveBelongsTo hbranch
  next hloaded =>
      obtain ⟨-, rfl, rfl⟩ := run_pure hbranch
      exact .inl ⟨Entity.attached_of_not_loaded ((Bool.not_eq_true _).mp hloaded), rfl, rfl⟩

/-- Every child that an owner has afterwards was given the key of the owner, and then saved. -/
theorem run_save_children {tie : Tie} {saveBelow : Edit Entity Unit} (hkind : tie.kind ≠ .belongsTo)
    (h : (Relation.tie tie).save db saveBelow owner log = ⟨.ok (), owner', log'⟩) :
    ∀ child' ∈ owner'.attached tie.name, ∃ ownerKey, ∃ child ∈ owner.attached tie.name, ∃ sent sent',
      owner.get? tie.sourceKey = some ownerKey ∧ ownerKey.isNull = false ∧
      saveBelow (child.set tie.targetKey ownerKey) sent = ⟨.ok (), child', sent'⟩ := by
  intro child' hchild'
  unfold save at h
  have hbranch := run_subject_bind h
  split at hbranch
  next hloaded =>
      obtain ⟨ownerKey, hget, hnull, -, hchildren⟩ := Tie.run_save_children hkind hbranch
      obtain ⟨child, hchild, sent, sent', hsave⟩ := exists_of_mem_right hchildren hchild'
      exact ⟨ownerKey, child, hchild, sent, sent', hget, hnull, hsave⟩
  next hloaded =>
      obtain ⟨-, rfl, rfl⟩ := run_pure hbranch
      have hnone : owner'.attached tie.name = [] :=
        Entity.attached_of_not_loaded ((Bool.not_eq_true _).mp hloaded)
      rw [hnone] at hchild'
      cases hchild'

theorem save_through {mark correlate : String} (hloaded : owner.isLoaded mark = true) :
    (Relation.through mark correlate route far mode).save db saveFar owner log =
      saveThrough db route far mode saveFar owner log := by
  have hmark : owner.isLoaded (Relation.through mark correlate route far mode).name = true := hloaded
  unfold save
  rw [subject_bind_apply, if_pos hmark]

theorem run_save_later {relation : Relation} {saveBelow : Edit Entity Unit}
    (hlater : relation.isBelongsTo = false)
    (h : relation.save db saveBelow owner log = ⟨.ok (), owner', log'⟩) :
    owner.SameOutside relation.slots owner' := by
  unfold save at h
  have hbranch := run_subject_bind h
  split at hbranch
  next hloaded =>
      cases relation with
      | tie t =>
          have hkind : t.kind ≠ .belongsTo := by
            intro hkind
            simp [isBelongsTo, hkind] at hlater
          obtain ⟨_, _, _, hsame, _⟩ := Tie.run_save_children hkind hbranch
          exact hsame
      | through name correlate route far mode =>
          rcases run_saveThrough hbranch with
            ⟨-, rfl, -⟩ | ⟨_, _, _, _, _, _, _, _, _, _, _, _, _, _, rfl⟩
          · exact Entity.sameOutside_refl _ _
          · exact Entity.sameOutside_mono (Entity.sameOutside_setRelation _ _ _)
              (by simp [slots])
  next hloaded =>
      obtain ⟨-, rfl, -⟩ := run_pure hbranch
      exact Entity.sameOutside_refl _ _

end Relation

namespace Database

variable {db : Database} {tree : EmbedTree} {entity entity' : Entity} {log log' : Log}

/-- The three stages of a save. -/
theorem run_save (h : db.save tree entity log = ⟨.ok (), entity', log'⟩) :
    ∃ branches prepared before persisted after, db.branches tree entity.model = .ok branches ∧
      inOrder ((branches.filter fun b => b.comesFirst).map (Branch.save db)) entity log =
        ⟨.ok (), prepared, before⟩ ∧
      db.persist prepared before = ⟨.ok (), persisted, after⟩ ∧
      inOrder ((branches.filter fun b => !b.comesFirst).map (Branch.save db)) persisted after =
        ⟨.ok (), entity', log'⟩ := by
  unfold save saveWith at h
  obtain ⟨branches, hbranches, hfirst⟩ := run_lift_bind (run_subject_bind h)
  obtain ⟨_, prepared, before, hfirst, hpersist⟩ := run_bind hfirst
  obtain ⟨_, persisted, after, hpersist, hlater⟩ := run_bind hpersist
  exact ⟨branches, prepared, before, persisted, after, hbranches, hfirst, hpersist, hlater⟩

variable {name : String} {below : EmbedTree} {relation : Relation}

theorem run_save_parent (hrelation : db.registry.relation entity.model name = .ok relation)
    (hfirst : relation.isBelongsTo = true)
    (h : db.save (.cons name below .nil) entity log = ⟨.ok (), entity', log'⟩) :
    ∃ prepared before, relation.save db (db.save below) entity log = ⟨.ok (), prepared, before⟩ ∧
      db.persist prepared before = ⟨.ok (), entity', log'⟩ := by
  obtain ⟨branches, prepared, before, persisted, after, hbranches, hparents, hpersist, hothers⟩ :=
    run_save h
  obtain ⟨_, _, hfound, hnil, rfl⟩ := branches_cons.mp hbranches
  cases hfound.symm.trans hrelation
  cases hnil
  simp only [List.filter_singleton, Branch.comesFirst, hfirst, cond_true, Bool.not_true, cond_false,
    List.map_singleton, List.map_nil] at hparents hothers
  obtain ⟨_, _, _, hsave, hdone⟩ := run_bind hparents
  cases hdone
  cases hothers
  exact ⟨_, _, hsave, hpersist⟩

theorem run_save_other (hrelation : db.registry.relation entity.model name = .ok relation)
    (hlater : relation.isBelongsTo = false)
    (h : db.save (.cons name below .nil) entity log = ⟨.ok (), entity', log'⟩) :
    ∃ persisted after, db.persist entity log = ⟨.ok (), persisted, after⟩ ∧
      relation.save db (db.save below) persisted after = ⟨.ok (), entity', log'⟩ := by
  obtain ⟨branches, prepared, before, persisted, after, hbranches, hparents, hpersist, hothers⟩ :=
    run_save h
  obtain ⟨_, _, hfound, hnil, rfl⟩ := branches_cons.mp hbranches
  cases hfound.symm.trans hrelation
  cases hnil
  simp only [List.filter_singleton, Branch.comesFirst, hlater, cond_true, Bool.not_false, cond_false,
    List.map_singleton, List.map_nil] at hparents hothers
  obtain ⟨_, _, _, hsave, hdone⟩ := run_bind hothers
  cases hdone
  cases hparents
  exact ⟨_, _, hpersist, hsave⟩

end Database

end RecordMapper
