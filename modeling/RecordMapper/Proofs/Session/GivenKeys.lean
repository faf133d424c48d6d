import RecordMapper.Proofs.Session.Stages

/-!
# Keys that children are given

The owner gives its key to a child before the child is saved.  The parents that the child itself is
saved with come after that: where one of them gives the same field, its key replaces the key of the
owner.  `HoldsChild` says which key a child ends with.
-/

namespace RecordMapper

open Edit

namespace Registry

variable {registry : Registry}

/-- A relation that is saved after the entity does not share its slots with a parent. -/
theorem name_notMem_slots {model name : String} {parent : Tie} {relation : Relation}
    (hparent : registry.relation model parent.name = .ok (.tie parent))
    (hkind : parent.kind = .belongsTo) (hrelation : registry.relation model name = .ok relation)
    (hlater : relation.isBelongsTo = false) : parent.name ∉ relation.slots := by
  have hname := name_of_relation hrelation
  cases relation with
  | tie t =>
      intro hslot
      have heq : parent.name = t.name := by simpa [Relation.slots] using hslot
      have hsame : t.name = name := hname
      rw [heq, hsame] at hparent
      cases hparent.symm.trans hrelation
      simp [Relation.isBelongsTo, hkind] at hlater
  | through own correlate route far mode =>
      have hsame : own = name := hname
      subst hsame
      intro hslot
      rcases (by simpa [Relation.slots] using hslot : parent.name = own ∨ parent.name = route.name)
        with heq | heq
      · rw [heq] at hparent
        cases hparent.symm.trans hrelation
      · rw [heq] at hparent
        cases hparent.symm.trans (parts_of_relation hrelation).1
        exact kind_of_through hrelation hkind

end Registry

namespace Entity

def parentKey? (entity : Entity) (field : String) : Relation → Option Value
  | .tie tie =>
      if tie.kind = .belongsTo ∧ tie.sourceKey = field then
        (entity.attached tie.name).head?.bind fun parent => parent.get? tie.targetKey
      else none
  | .through _ _ _ _ _ => none

/-- The key that a field takes from the last parent under a tree that gives it one. -/
def givenKey? (registry : Registry) (entity : Entity) (field : String) : EmbedTree → Option Value
  | .nil => none
  | .cons name _ rest =>
      (entity.givenKey? registry field rest).or
        (match registry.relation entity.model name with
          | .ok relation => entity.parentKey? field relation
          | .error _ => none)

variable {registry : Registry} {entity entity' : Entity} {field : String}

theorem givenKey?_cons {name : String} {below rest : EmbedTree} {relation : Relation}
    (hrelation : registry.relation entity.model name = .ok relation) :
    entity.givenKey? registry field (.cons name below rest) =
      (entity.givenKey? registry field rest).or (entity.parentKey? field relation) := by
  rw [givenKey?, hrelation]

theorem parentKey?_of_later {relation : Relation} (h : relation.isBelongsTo = false) :
    entity.parentKey? field relation = none := by
  cases relation with
  | tie tie => simp_all [Relation.isBelongsTo, parentKey?]
  | through _ _ _ _ _ => rfl

theorem givenKey?_congr (hmodel : entity'.model = entity.model)
    (hparents : ∀ parent : Tie, registry.relation entity.model parent.name = .ok (.tie parent) →
      parent.kind = .belongsTo → entity'.attached parent.name = entity.attached parent.name)
    (field : String) (tree : EmbedTree) :
    entity'.givenKey? registry field tree = entity.givenKey? registry field tree := by
  induction tree with
  | nil => rfl
  | cons name below rest _ ih =>
      rw [givenKey?, givenKey?, ih, hmodel]
      cases hrelation : registry.relation entity.model name with
      | error error => rfl
      | ok relation =>
          have hname := Registry.name_of_relation hrelation
          cases relation with
          | through _ _ _ _ _ => rfl
          | tie tie =>
              by_cases hkind : tie.kind = .belongsTo
              · have hresolves : registry.relation entity.model tie.name = .ok (.tie tie) := by
                  rw [← hrelation, ← hname]
                  rfl
                simp only [parentKey?, hparents tie hresolves hkind]
              · simp [parentKey?, hkind]

/-- What the parents under a tree leave of an entity: the fields take the keys that they are given,
and every other parent is still the one it was. -/
structure TakesKeys (registry : Registry) (tree : EmbedTree) (entity entity' : Entity) : Prop where
  model : entity'.model = entity.model
  fields : ∀ field, entity'.get? field =
    (entity'.givenKey? registry field tree).or (entity.get? field)
  notNull : ∀ field key, entity'.givenKey? registry field tree = some key → key.isNull = false
  parents : ∀ parent : Tie, registry.relation entity.model parent.name = .ok (.tie parent) →
    parent.kind = .belongsTo → entity'.attached parent.name = entity.attached parent.name ∨
      (entity'.givenKey? registry parent.sourceKey tree).isSome = true

theorem takesKeys_refl (registry : Registry) (entity : Entity) :
    entity.TakesKeys registry .nil entity :=
  ⟨rfl, fun _ => rfl, nofun, fun _ _ _ => .inl rfl⟩

variable {middle : Entity} {name : String} {below rest : EmbedTree} {tie : Tie}

theorem takesKeys_cons
    (hgiven : ∀ field, entity'.givenKey? registry field (.cons name below rest) =
      entity'.givenKey? registry field rest) (h : entity.TakesKeys registry rest entity') :
    entity.TakesKeys registry (.cons name below rest) entity' where
  model := h.model
  fields field := by rw [hgiven]; exact h.fields field
  notNull field key hkey := h.notNull field key (hgiven field ▸ hkey)
  parents parent hparent hkind := by rw [hgiven]; exact h.parents parent hparent hkind

theorem takesKeys_later {relation : Relation}
    (hrelation : registry.relation entity.model name = .ok relation)
    (hlater : relation.isBelongsTo = false) (h : entity.TakesKeys registry rest entity') :
    entity.TakesKeys registry (.cons name below rest) entity' := by
  refine takesKeys_cons (fun field => ?_) h
  rw [givenKey?_cons (h.model ▸ hrelation), parentKey?_of_later hlater, Option.or_none]

theorem takesKeys_absent (hrelation : registry.relation entity.model tie.name = .ok (.tie tie))
    (hkind : tie.kind = .belongsTo) (hnone : entity.attached tie.name = [])
    (h : entity.TakesKeys registry rest entity') :
    entity.TakesKeys registry (.cons tie.name below rest) entity' := by
  refine takesKeys_cons (fun field => ?_) h
  rw [givenKey?_cons (h.model ▸ hrelation)]
  cases hrest : entity'.givenKey? registry field rest with
  | some key => rfl
  | none =>
      rw [Option.none_or, parentKey?]
      split
      next hfield =>
          rcases h.parents tie hrelation hkind with hsame | hsome
          · rw [hsame, hnone]
            rfl
          · rw [hfield.2, hrest] at hsome
            cases hsome
      next => rfl

theorem givenKey?_present {parent : Entity} {key : Value} (below : EmbedTree)
    (hrelation : registry.relation entity.model tie.name = .ok (.tie tie))
    (hkind : tie.kind = .belongsTo) (hkey : parent.get? tie.targetKey = some key)
    (h : TakesKeys registry rest
      ((entity.setRelation tie.name (.one (some parent))).set tie.sourceKey key) entity')
    (field : String) : entity'.givenKey? registry field (.cons tie.name below rest) =
      (entity'.givenKey? registry field rest).or
        (if tie.sourceKey = field then some key else none) := by
  have hmodel : entity'.model = entity.model := h.model
  rw [givenKey?_cons (hmodel ▸ hrelation)]
  cases hrest : entity'.givenKey? registry field rest with
  | some key => rfl
  | none =>
      rw [Option.none_or, Option.none_or, parentKey?]
      by_cases hfield : tie.sourceKey = field
      · rw [if_pos ⟨hkind, hfield⟩, if_pos hfield]
        -- a parent that another relation of this name had replaced would have given a key
        rcases h.parents tie hrelation hkind with hsame | hsome
        · have hattached : ((entity.setRelation tie.name (.one (some parent))).set tie.sourceKey
              key).attached tie.name = [parent] := attached_setRelation_self entity tie.name _
          rw [hsame, hattached]
          exact hkey
        · rw [hfield, hrest] at hsome
          cases hsome
      · rw [if_neg fun hboth => hfield hboth.2, if_neg hfield]

/-- A parent gives its key, and a later one may replace it. -/
theorem takesKeys_present {parent : Entity} {key : Value}
    (hrelation : registry.relation entity.model tie.name = .ok (.tie tie))
    (hkind : tie.kind = .belongsTo) (hkey : parent.get? tie.targetKey = some key)
    (hnull : key.isNull = false)
    (h : TakesKeys registry rest
      ((entity.setRelation tie.name (.one (some parent))).set tie.sourceKey key) entity') :
    entity.TakesKeys registry (.cons tie.name below rest) entity' := by
  have hgiven := givenKey?_present below hrelation hkind hkey h
  refine ⟨h.model, fun field => ?_, fun field found hfound => ?_, fun other hother hotherKind => ?_⟩
  · rw [hgiven, h.fields, get?_set]
    by_cases hfield : tie.sourceKey = field
    · rw [if_pos hfield, if_pos hfield.symm]
      cases entity'.givenKey? registry field rest <;> rfl
    · rw [if_neg hfield, if_neg (Ne.symm hfield), Option.or_none]
      rfl
  · rw [hgiven] at hfound
    rcases Option.or_eq_some_iff.mp hfound with hrest | ⟨-, hown⟩
    · exact h.notNull field found hrest
    · split at hown
      · cases hown
        exact hnull
      · cases hown
  · by_cases hname : other.name = tie.name
    · rw [hname] at hother
      cases hother.symm.trans hrelation
      refine .inr ?_
      rw [hgiven, if_pos rfl]
      cases entity'.givenKey? registry tie.sourceKey rest <;> rfl
    · have hattached : ((entity.setRelation tie.name (.one (some parent))).set tie.sourceKey
          key).attached other.name = entity.attached other.name :=
        (attached_setRelation entity tie.name other.name _).trans (if_neg hname)
      rcases h.parents other hother hotherKind with hsame | hsome
      · exact .inl (hsame.trans hattached)
      · rw [hgiven]
        exact .inr (by simp [hsome])

structure SameParents (registry : Registry) (entity entity' : Entity) : Prop where
  model : entity'.model = entity.model
  fields : entity'.fields = entity.fields
  snapshot : entity'.snapshot = entity.snapshot
  parents : ∀ parent : Tie, registry.relation entity.model parent.name = .ok (.tie parent) →
    parent.kind = .belongsTo → entity'.attached parent.name = entity.attached parent.name

end Entity

namespace Database

open Entity

variable {db : Database} {tree : EmbedTree} {entity entity' prepared : Entity} {log log' : Log}

/-- An entity takes its keys from the parents that are saved before it. -/
theorem takesKeys_of_run {branches : List Branch}
    (hbranches : db.branches tree entity.model = .ok branches)
    (h : inOrder ((branches.filter fun b => b.comesFirst).map (Branch.save db)) entity log =
      ⟨.ok (), prepared, log'⟩) : entity.TakesKeys db.registry tree prepared := by
  induction tree generalizing entity branches log with
  | nil =>
      cases hbranches
      obtain ⟨-, rfl, -⟩ := run_pure h
      exact takesKeys_refl _ _
  | cons name below rest _ ih =>
      obtain ⟨relation, others, hrelation, hothers, rfl⟩ := branches_cons.mp hbranches
      cases hfirst : relation.isBelongsTo with
      | false =>
          rw [List.filter_cons_of_neg (by simpa [Branch.comesFirst] using hfirst)] at h
          exact takesKeys_later hrelation hfirst (ih hothers h)
      | true =>
          rw [List.filter_cons_of_pos (by simpa [Branch.comesFirst] using hfirst)] at h
          obtain ⟨_, middle, sent, hsave, hrest⟩ := run_bind h
          cases relation with
          | through _ _ _ _ _ => cases hfirst
          | tie tie =>
              have hkind : tie.kind = .belongsTo := by simpa [Relation.isBelongsTo] using hfirst
              obtain rfl : tie.name = name := Registry.name_of_relation hrelation
              rcases Relation.run_save_belongsTo hkind hsave with ⟨hnone, rfl, rfl⟩ |
                ⟨_, parent, key, -, -, hkey, hnull, rfl⟩
              · exact takesKeys_absent hrelation hkind hnone (ih hothers hrest)
              · exact takesKeys_present hrelation hkind hkey hnull (ih hothers hrest)

theorem relation_of_mem_branches {model : String} {branches : List Branch}
    (hbranches : db.branches tree model = .ok branches) {branch : Branch}
    (hbranch : branch ∈ branches) :
    ∃ name ∈ tree.names, db.registry.relation model name = .ok branch.relation := by
  obtain ⟨entry, hentry, hrelation, -⟩ :=
    exists_of_mem_right (branches_forall₂ hbranches) hbranch
  rw [← EmbedTree.map_fst_entries]
  exact ⟨entry.1, List.mem_map_of_mem hentry, hrelation⟩

theorem sameParents_of_run {branches chosen : List Branch}
    (hbranches : db.branches tree entity.model = .ok branches) (hchosen : chosen ⊆ branches)
    (hlater : ∀ branch ∈ chosen, branch.relation.isBelongsTo = false)
    (h : inOrder (chosen.map (Branch.save db)) entity log = ⟨.ok (), entity', log'⟩) :
    entity.SameParents db.registry entity' := by
  refine run_inOrder (P := entity.SameParents db.registry)
    (fun step hstep current sent current' sent' hrun hcurrent => ?_) h
    ⟨rfl, rfl, rfl, fun _ _ _ => rfl⟩
  obtain ⟨branch, hbranch, rfl⟩ := List.mem_map.mp hstep
  obtain ⟨name, -, hrelation⟩ := relation_of_mem_branches hbranches (hchosen hbranch)
  have hsame := Relation.run_save_later (hlater branch hbranch) hrun
  refine ⟨hsame.model.trans hcurrent.model, hsame.fields.trans hcurrent.fields,
    hsame.snapshot.trans hcurrent.snapshot, fun parent hparent hkind => ?_⟩
  rw [← hcurrent.parents parent hparent hkind, attached, attached, hsame.relations parent.name
    (Registry.name_notMem_slots hparent hkind hrelation (hlater branch hbranch))]

/-- A value stays through a save unless a parent gives the field a key, and then that is in the
stored row. -/
theorem value_of_run_save {field : String} {value : Value}
    (h : db.save tree entity log = ⟨.ok (), entity', log'⟩) (hvalue : entity.get? field = some value)
    (hnull : value.isNull = false) :
    entity'.model = entity.model ∧
    entity'.get? field = some ((entity'.givenKey? db.registry field tree).getD value) ∧
      ∀ schema, db.registry.schema entity.model = .ok schema → schema.hasField field = true →
        ∃ stored, entity'.stored? field = some stored ∧
          ((entity'.givenKey? db.registry field tree).getD value).Same stored := by
  obtain ⟨branches, prepared, before, persisted, after, hbranches, hparents, hpersist, hothers⟩ :=
    run_save h
  have htakes := takesKeys_of_run hbranches hparents
  have hpersisted := run_persist hpersist
  have hmodel : persisted.model = entity.model := hpersisted.model.trans htakes.model
  have hlater := sameParents_of_run (hmodel ▸ hbranches) (List.filter_subset_self _)
    (fun branch hbranch => by simpa [Branch.comesFirst] using (List.mem_filter.mp hbranch).2) hothers
  have hgiven : entity'.givenKey? db.registry field tree =
      prepared.givenKey? db.registry field tree := by
    refine (givenKey?_congr hlater.model hlater.parents field tree).trans ?_
    refine givenKey?_congr hpersisted.model (fun parent _ _ => ?_) field tree
    rw [attached_of_relations hpersisted.relations]
  have hprepared : prepared.get? field =
      some ((prepared.givenKey? db.registry field tree).getD value) := by
    rw [htakes.fields, hvalue]
    cases prepared.givenKey? db.registry field tree <;> rfl
  have hpreparedNull : ((prepared.givenKey? db.registry field tree).getD value).isNull = false := by
    cases hkey : prepared.givenKey? db.registry field tree with
    | none => exact hnull
    | some key => exact htakes.notNull field key hkey
  have hget := hpersisted.get?_of_isNull hprepared hpreparedNull
  refine ⟨hlater.model.trans hmodel, ?_, fun schema hschema hfield => ?_⟩
  · rw [hgiven, Entity.get?, hlater.fields]
    exact hget
  · obtain ⟨⟨stored, hstored, hsame⟩, -⟩ :=
      hpersisted.stored (htakes.model ▸ hschema) hfield hget
    refine ⟨stored, ?_, hgiven ▸ hsame⟩
    rw [stored?, hlater.snapshot]
    exact hstored

theorem branches_split {model name : String} {below : EmbedTree} {branches : List Branch}
    (hbranches : db.branches tree model = .ok branches) (hbelow : tree.get? name = some below) :
    ∃ relation before after, db.registry.relation model name = .ok relation ∧
      branches = before ++ ⟨relation, db.save below⟩ :: after ∧
      ∀ branch ∈ before ++ after, ∃ other ∈ tree.names.erase name,
        db.registry.relation model other = .ok branch.relation := by
  induction tree generalizing branches with
  | nil => cases hbelow
  | cons first found rest _ ih =>
      obtain ⟨relation, others, hrelation, hothers, rfl⟩ := branches_cons.mp hbranches
      rw [EmbedTree.get?] at hbelow
      by_cases hname : first = name
      · rw [if_pos hname] at hbelow
        cases hbelow
        subst hname
        refine ⟨relation, [], others, hrelation, rfl, fun branch hbranch => ?_⟩
        rw [EmbedTree.names, List.erase_cons_head]
        exact relation_of_mem_branches hothers hbranch
      · rw [if_neg hname] at hbelow
        obtain ⟨own, before, after, hown, rfl, hall⟩ := ih hothers hbelow
        refine ⟨own, ⟨relation, db.save found⟩ :: before, after, hown, rfl, fun branch hbranch => ?_⟩
        rw [EmbedTree.names, List.erase_cons_tail (by simpa using hname)]
        rcases List.mem_cons.mp hbranch with rfl | hmem
        · exact ⟨first, List.mem_cons_self, hrelation⟩
        · obtain ⟨other, hother, hfound⟩ := hall branch hmem
          exact ⟨other, List.mem_cons_of_mem first hother, hfound⟩

end Database

/-- A child has the key of its owner in memory and in its stored row, unless a parent that it was
saved with gave it another one. -/
structure Tie.HoldsChild (registry : Registry) (tie : Tie) (below : EmbedTree) (ownerKey : Value)
    (child : Entity) : Prop where
  value : child.get? tie.targetKey =
    some ((child.givenKey? registry tie.targetKey below).getD ownerKey)
  attached : child.get? tie.targetKey = some ownerKey ↔
    ∀ key, child.givenKey? registry tie.targetKey below = some key → key = ownerKey
  stored : ∀ schema, registry.schema child.model = .ok schema →
    schema.hasField tie.targetKey = true → ∃ stored, child.stored? tie.targetKey = some stored ∧
      ((child.givenKey? registry tie.targetKey below).getD ownerKey).Same stored

open Entity in
theorem Database.holdsChild_of_run {db : Database} {tie : Tie} {below : EmbedTree}
    {ownerKey : Value} {child child' : Entity} {log log' : Log} (hnull : ownerKey.isNull = false)
    (h : db.save below (child.set tie.targetKey ownerKey) log = ⟨.ok (), child', log'⟩) :
    tie.HoldsChild db.registry below ownerKey child' := by
  have hvalue : (child.set tie.targetKey ownerKey).get? tie.targetKey = some ownerKey := by simp
  obtain ⟨hmodel, hget, hstored⟩ := value_of_run_save h hvalue hnull
  refine ⟨hget, ?_, hmodel ▸ hstored⟩
  rw [hget]
  cases child'.givenKey? db.registry tie.targetKey below <;> simp

namespace Gallery

def framing : Database :=
  ⟨answering [], ⟨.standard, [gallery, hung]⟩⟩

def galleryOf (id : Int64) : Entity :=
  .hydrated "Gallery" (.ofPairs [("id", .integer id)])

/-- An image of the first gallery, held by the second. -/
def movedImage : Entity :=
  (galleryOf 2).setRelation "images" (.many ⟨"Image",
    [(storedImage 5).setRelation "gallery" (.one (some (galleryOf 1)))]⟩)

/-- The second gallery is saved with its image, and the image with what is below it. -/
def saveMoved (below : EmbedTree) : Outcome Entity Unit :=
  framing.save (.cons "images" below .nil) movedImage []

/-- The galleries that the images of the second gallery are in afterwards. -/
def galleriesAfter (below : EmbedTree) : List (Option Value) :=
  ((saveMoved below).subject.attached "images").map fun child => child.get? "gallery_id"

end Gallery

/-- A child of an owner is saved with the key of the owner.  It ends with this key if and only if no
parent that is saved with the child gives it another one. -/
theorem save_attaches_children {db : Database} {tie : Tie} {tree below : EmbedTree}
    {owner owner' : Entity} {log log' : Log}
    (hrelation : db.registry.relation owner.model tie.name = .ok (.tie tie))
    (hkind : tie.kind ≠ .belongsTo) (hbelow : tree.get? tie.name = some below)
    (halone : ∀ other ∈ tree.names.erase tie.name, ∀ relation,
      db.registry.relation owner.model other = .ok relation → tie.name ∉ relation.slots)
    (h : db.save tree owner log = ⟨.ok (), owner', log'⟩) :
    ∀ child' ∈ owner'.attached tie.name, ∃ ownerKey, owner'.get? tie.sourceKey = some ownerKey ∧
      ownerKey.isNull = false ∧ tie.HoldsChild db.registry below ownerKey child' := by
  obtain ⟨branches, prepared, _, persisted, _, hbranches, hparents, hpersist, hothers⟩ :=
    Database.run_save h
  obtain ⟨relation, before, after, hfound, rfl, hall⟩ := Database.branches_split hbranches hbelow
  cases hfound.symm.trans hrelation
  have hlater : (Branch.mk (.tie tie) (db.save below)).comesFirst = false := by
    simpa [Branch.comesFirst, Relation.isBelongsTo] using hkind
  rw [List.filter_append, List.filter_cons_of_pos (by simp [hlater]), List.map_append,
    List.map_cons] at hothers
  obtain ⟨current, sent, current', sent', -, hown, hafter⟩ := run_inOrder_middle hothers
  have hrun : (Relation.tie tie).save db (db.save below) current sent = ⟨.ok (), current', sent'⟩ :=
    hown
  -- the relations that follow keep the key of the owner, and its children
  have hkept : owner'.fields = current'.fields ∧
      owner'.relation? tie.name = current'.relation? tie.name := by
    refine run_inOrder (P := fun entity : Entity => entity.fields = current'.fields ∧
      entity.relation? tie.name = current'.relation? tie.name)
      (fun step hstep entity sent entity' sent' hrun hentity => ?_) hafter ⟨rfl, rfl⟩
    obtain ⟨branch, hbranch, rfl⟩ := List.mem_map.mp hstep
    obtain ⟨hmem, hfilter⟩ := List.mem_filter.mp hbranch
    obtain ⟨other, hother, hresolves⟩ := hall branch (List.mem_append_right _ hmem)
    have hsame := Relation.run_save_later (by simpa [Branch.comesFirst] using hfilter) hrun
    exact ⟨hsame.fields.trans hentity.1,
      (hsame.relations _ (halone other hother _ hresolves)).trans hentity.2⟩
  intro child' hchild'
  have hmem : child' ∈ current'.attached tie.name := by
    rwa [Entity.attached, hkept.2] at hchild'
  obtain ⟨ownerKey, child, -, _, _, hkey, hnull, hsave⟩ :=
    Relation.run_save_children hkind hrun child' hmem
  refine ⟨ownerKey, ?_, hnull, Database.holdsChild_of_run hnull hsave⟩
  have hsame := Relation.run_save_later (by simpa [Relation.isBelongsTo] using hkind) hrun
  rw [Entity.get?, hkept.1, hsame.fields]
  exact hkey

open Gallery in
/-- An image that is moved to another gallery stays there. -/
theorem save_moves_image :
    saveMoved .nil = ⟨.ok (), (saveMoved .nil).subject, (saveMoved .nil).log⟩ ∧
      galleriesAfter .nil = [some (.integer 2)] ∧
      ∀ child' ∈ (saveMoved .nil).subject.attached "images", ∃ ownerKey,
        (saveMoved .nil).subject.get? "id" = some ownerKey ∧ ownerKey.isNull = false ∧
        images.HoldsChild framing.registry .nil ownerKey child' := by
  have h : framing.save (.cons "images" .nil .nil) movedImage [] =
      ⟨.ok (), (saveMoved .nil).subject, (saveMoved .nil).log⟩ := by rfl
  have hrelation : framing.registry.relation movedImage.model images.name = .ok (.tie images) := by
    rfl
  refine ⟨h, by rfl, save_attaches_children hrelation (by decide) (by rfl) (fun _ hother => ?_) h⟩
  simp [EmbedTree.names, images] at hother

open Gallery in
/-- An image that is saved together with its old gallery goes back there. -/
theorem save_returns_image :
    ¬ ∀ (db : Database) (tie : Tie) (below : EmbedTree) (owner owner' : Entity) (log log' : Log),
      db.registry.relation owner.model tie.name = .ok (.tie tie) → tie.kind ≠ .belongsTo →
      owner.isLoaded tie.name = true →
      db.save (.cons tie.name below .nil) owner log = ⟨.ok (), owner', log'⟩ →
      ∀ child' ∈ owner'.attached tie.name,
        child'.get? tie.targetKey = owner'.get? tie.sourceKey := by
  intro hall
  have h : framing.save (.cons "images" (.cons "gallery" .nil .nil) .nil) movedImage [] =
      ⟨.ok (), (saveMoved (.cons "gallery" .nil .nil)).subject,
        (saveMoved (.cons "gallery" .nil .nil)).log⟩ := by rfl
  have hkeys := hall framing images _ movedImage _ [] _ (by rfl) (by decide) (by rfl) h
  have hgalleries : galleriesAfter (.cons "gallery" .nil .nil) = [some (.integer 2)] :=
    List.map_congr_left hkeys
  have hfirst : galleriesAfter (.cons "gallery" .nil .nil) = [some (.integer 1)] := by rfl
  rw [hfirst] at hgalleries
  cases hgalleries

end RecordMapper
