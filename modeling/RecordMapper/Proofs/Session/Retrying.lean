import RecordMapper.Proofs.Session.Accounting
import RecordMapper.Proofs.Session.Stages

/-!
# Saving again after a failure

A save that fails leaves a graph that can be saved again: what was inserted is known to be stored,
and the rest is still new.  So a save that is called until it succeeds inserts every new entity that
its tree reaches once.  This is shown of trees without relations through a pivot, whose pivots are
made new in order to be inserted again.
-/

namespace RecordMapper

open Edit Entity

/-! ## Trees over graphs -/

namespace EmbedTree

/-- Names that lead from the top of a tree to a tree below it. -/
inductive Leads : EmbedTree → List String → EmbedTree → Prop
  | here (tree : EmbedTree) : Leads tree [] tree
  | step {tree below sub : EmbedTree} {name : String} {names : List String}
      (entry : (name, below) ∈ tree.entries) (rest : Leads below names sub) :
      Leads tree (name :: names) sub

end EmbedTree

namespace Registry

/-- Wherever a tree leads in a graph, its names are relations that lead to no pivot. -/
def NamesTies (registry : Registry) (tree : EmbedTree) (entity : Entity) : Prop :=
  ∀ position found name sub relation, entity.recordAt? position = some found →
    tree.Leads (position.map Prod.fst ++ [name]) sub →
    registry.relation found.model name = .ok relation → ∃ tie, relation = .tie tie

variable {registry : Registry} {tree below : EmbedTree} {entity entity' : Entity} {name : String}

theorem namesTies_of_grown (hgrown : registry.Grown entity.recordAt? entity'.recordAt?)
    (h : registry.NamesTies tree entity) : registry.NamesTies tree entity' := by
  intro position found name sub relation hfound hleads hrelation
  have hrel := hgrown position
  rw [hfound] at hrel
  cases hbefore : entity.recordAt? position with
  | none =>
      rw [hbefore] at hrel
      cases hrel
  | some before =>
      rw [hbefore] at hrel
      cases hrel with
      | some hsame =>
          exact h position before name sub relation hbefore hleads (hsame.1.model ▸ hrelation)

theorem tie_of_namesTies {relation : Relation} (h : registry.NamesTies tree entity)
    (hentry : (name, below) ∈ tree.entries)
    (hrelation : registry.relation entity.model name = .ok relation) :
    ∃ tie, relation = .tie tie :=
  h [] entity.record name below relation rfl (.step hentry (.here below)) hrelation

theorem namesTies_below (h : registry.NamesTies tree entity) (hentry : (name, below) ∈ tree.entries)
    {related : Entity} (hrelated : related ∈ entity.attached name) :
    registry.NamesTies below related := by
  obtain ⟨i, hi⟩ := List.mem_iff_getElem?.mp hrelated
  intro position found other sub relation hfound hleads hrelation
  refine h ((name, i) :: position) found other sub relation ?_ (.step hentry hleads) hrelation
  rw [recordAt?, hi]
  exact hfound

theorem namesTies_leaf {tie : Tie} (h : registry.relation entity.model name = .ok (.tie tie)) :
    registry.NamesTies (.cons name .nil .nil) entity := by
  intro position found other sub relation hfound hleads hrelation
  generalize hnames : position.map Prod.fst ++ [other] = names at hleads
  cases hleads with
  | here => simp at hnames
  | step entry more =>
      obtain ⟨rfl, rfl⟩ := Prod.mk.inj (List.mem_singleton.mp entry)
      cases more with
      | here =>
          obtain ⟨rfl, rfl⟩ : position = [] ∧ other = _ := by
            simpa [List.append_eq_cons_iff] using hnames
          cases hfound
          exact ⟨tie, Except.ok.inj (hrelation.symm.trans h)⟩
      | step entry _ => cases entry

end Registry

/-! ## Accounting for cascades -/

namespace Tie

variable {db : Database} {tie : Tie} {save : Edit Entity Unit} {owner : Entity}

theorem accounted_saveBelongsTo (hhas : db.registry.Has (.tie tie))
    (h : ∀ related ∈ owner.attached tie.name, save.Accounted db recordAt? related) :
    (tie.saveBelongsTo save).Accounted db recordAt? owner := by
  refine accounted_bind (accounted_onOne fun related hrelated => ?_) fun saved => ?_
  · exact accounted_bind (h related hrelated) fun _ =>
      accounted_bind accounted_subject fun _ => accounted_lift _
  · cases saved with
    | none => exact accounted_pure ()
    | some key => exact accounted_set (.inr ⟨tie, hhas, .inl rfl⟩) key

theorem accounted_saveHasOne (hhas : db.registry.Has (.tie tie))
    (h : ∀ related ∈ owner.attached tie.name, save.Accounted db recordAt? related) :
    (tie.saveHasOne save).Accounted db recordAt? owner := by
  refine accounted_bind accounted_subject fun _ => accounted_lift_bind fun ownerKey _ => ?_
  refine accounted_bind (accounted_onOne fun child hchild => ?_) fun _ => accounted_pure ()
  exact accounted_bind (accounted_set (.inr ⟨tie, hhas, .inr rfl⟩) ownerKey) fun _ => h child hchild

theorem accounted_deleteMissing {target : Schema} (ids : List Value) :
    (deleteMissing db target ids).Accounted db recordAt? owner := by
  unfold deleteMissing
  split
  · exact accounted_pure ()
  · refine accounted_bind (accounted_execute fun sql hsql => ?_) fun _ => accounted_pure ()
    exact StatementKind.begins_eq_decide (Delete.begins_render hsql) .insert

theorem accounted_saveHasMany (hhas : db.registry.Has (.tie tie))
    (h : ∀ related ∈ owner.attached tie.name, save.Accounted db recordAt? related) :
    (tie.saveHasMany db save).Accounted db recordAt? owner := by
  refine accounted_bind accounted_subject fun _ => accounted_lift_bind fun ownerKey _ =>
    accounted_lift_bind fun target _ => accounted_lift_bind fun _ _ =>
    accounted_lift_bind fun related _ => ?_
  refine accounted_bind (accounted_execute fun sql hsql => ?_) fun stored => ?_
  · exact StatementKind.begins_eq_decide (Select.begins_render hsql) .insert
  · refine accounted_bind (accounted_onMany (accounted_forEach fun child hchild => ?_)) fun _ =>
      accounted_deleteMissing _
    refine accounted_bind (accounted_set (.inr ⟨tie, hhas, .inr rfl⟩) ownerKey) fun _ =>
      accounted_bind (h child hchild) fun _ => ?_
    exact accounted_bind accounted_subject fun _ => accounted_pure _

theorem accounted_save (hhas : db.registry.Has (.tie tie))
    (h : ∀ related ∈ owner.attached tie.name, save.Accounted db recordAt? related) :
    (tie.save db save).Accounted db recordAt? owner := by
  unfold Tie.save
  cases tie.kind with
  | belongsTo => exact accounted_saveBelongsTo hhas h
  | hasOne => exact accounted_saveHasOne hhas h
  | hasMany => exact accounted_saveHasMany hhas h

end Tie

namespace Database

variable {db : Database} {tree below : EmbedTree} {entity entity' : Entity} {log log' : Log}

theorem accounted_branch {tie : Tie} {saveBelow : Edit Entity Unit}
    (hhas : db.registry.Has (.tie tie))
    (h : ∀ related ∈ entity.attached tie.name, saveBelow.Accounted db recordAt? related) :
    ((Relation.tie tie).save db saveBelow).Accounted db recordAt? entity := by
  refine accounted_bind accounted_subject fun current => ?_
  split
  · exact Tie.accounted_save hhas h
  · exact accounted_pure ()

theorem accounted_branches {branches : List Branch}
    (hbelow : ∀ entry ∈ tree.entries, ∀ related, db.registry.NamesTies entry.2 related →
      (db.save entry.2).Accounted db recordAt? related)
    (hties : db.registry.NamesTies tree entity)
    (hbranches : db.branches tree entity.model = .ok branches) :
    ∀ branch ∈ branches, (branch.save db).Accounted db recordAt? entity := by
  intro branch hbranch
  obtain ⟨⟨name, below⟩, hentry, hrelation, hsave⟩ :=
    exists_of_mem_right (branches_forall₂ hbranches) hbranch
  obtain ⟨relation, saveBelow⟩ := branch
  obtain ⟨tie, rfl⟩ := Registry.tie_of_namesTies hties hentry hrelation
  obtain rfl : tie.name = name := Registry.name_of_relation hrelation
  subst hsave
  exact accounted_branch ⟨_, _, hrelation⟩ fun related hrelated =>
    hbelow _ hentry related (Registry.namesTies_below hties hentry hrelated)

theorem accounted_steps {branches part : List Branch} (hpart : part ⊆ branches)
    (h : ∀ branch ∈ branches, (branch.save db).Accounted db recordAt? entity) :
    (inOrder (part.map (Branch.save db))).Accounted db recordAt? entity := by
  refine accounted_inOrder fun step hstep => ?_
  obtain ⟨branch, hbranch, rfl⟩ := List.mem_map.mp hstep
  exact h branch (hpart hbranch)

theorem accounted_saveWith
    (hbelow : ∀ entry ∈ tree.entries, ∀ related, db.registry.NamesTies entry.2 related →
      (db.save entry.2).Accounted db recordAt? related)
    (hties : db.registry.NamesTies tree entity) : (db.save tree).Accounted db recordAt? entity := by
  refine accounted_subject_bind fun current hcurrent => accounted_lift_bind fun branches hbranches => ?_
  have hsteps := accounted_branches hbelow (Registry.namesTies_of_grown hcurrent hties) hbranches
  exact accounted_bind (accounted_steps (List.filter_subset_self _) hsteps) fun _ =>
    accounted_bind accounted_persist fun _ =>
      accounted_steps (List.filter_subset_self _) hsteps

/-- A cascade accounts for its inserts, by induction on the tree. -/
theorem accounted_below (tree : EmbedTree) : ∀ entry ∈ tree.entries, ∀ related,
    db.registry.NamesTies entry.2 related → (db.save entry.2).Accounted db recordAt? related := by
  induction tree with
  | nil => nofun
  | cons name below rest ihBelow ihRest =>
      intro entry hentry related hties
      rcases List.mem_cons.mp hentry with rfl | hmem
      · exact accounted_saveWith ihBelow hties
      · exact ihRest entry hmem related hties

theorem accounted_save (hties : db.registry.NamesTies tree entity) :
    (db.save tree).Accounted db recordAt? entity :=
  accounted_saveWith (accounted_below tree) hties

/-! ## What a successful save reaches -/

theorem stored_of_run_branch {tie : Tie} {saveBelow : Edit Entity Unit} {position : Position}
    (hhas : db.registry.Has (.tie tie))
    (hbelow : ∀ related ∈ entity.attached tie.name, ∀ current,
      db.registry.Grown related.recordAt? current.recordAt? → ∀ related' sent sent',
        saveBelow current sent = ⟨.ok (), related', sent'⟩ →
          ∀ found, related'.recordAt? position = some found → found.isStored = true)
    (h : (Relation.tie tie).save db saveBelow entity log = ⟨.ok (), entity', log'⟩) (i : Nat)
    {found : Entity} (hfound : entity'.recordAt? ((tie.name, i) :: position) = some found) :
    found.isStored = true := by
  obtain ⟨child', hchild', hrest⟩ := Option.bind_eq_some_iff.mp hfound
  have hmem : child' ∈ entity'.attached tie.name := List.mem_of_getElem? hchild'
  by_cases hkind : tie.kind = .belongsTo
  · rcases Relation.run_save_belongsTo hkind h with ⟨hnone, rfl, -⟩ |
      ⟨related, related', key, hsome, hsave, -, -, rfl⟩
    · rw [hnone] at hmem
      cases hmem
    · have hattached : (entity.setRelation tie.name (.one (some related'))).attached tie.name =
          [related'] := attached_setRelation_self entity tie.name _
      obtain rfl : child' = related' := by
        rw [← List.mem_singleton, ← hattached]
        exact hmem
      have hrelated : related ∈ entity.attached tie.name := hsome ▸ List.mem_singleton_self related
      exact hbelow related hrelated related (Registry.grown_refl _ _) _ _ _ hsave found hrest
  · obtain ⟨ownerKey, child, hchild, sent, sent', -, -, hsave⟩ :=
      Relation.run_save_children hkind h child' hmem
    have hset : modify (fun entity : Entity => entity.set tie.targetKey ownerKey) child sent =
        ⟨.ok (), child.set tie.targetKey ownerKey, sent⟩ := rfl
    have hgrown := grown_of_run (accounted_set (.inr ⟨tie, hhas, .inr rfl⟩) ownerKey) hset
    exact hbelow child hchild _ hgrown _ _ _ hsave found hrest

theorem stored_of_run_steps {chosen : List Branch} {branch : Branch} {position : Position}
    (hsteps : ∀ branch ∈ chosen, (branch.save db).Accounted db recordAt? entity)
    (hbranch : branch ∈ chosen)
    (hsave : ∀ current sent current' sent', db.registry.Grown entity.recordAt? current.recordAt? →
      branch.save db current sent = ⟨.ok (), current', sent'⟩ →
        ∀ found, current'.recordAt? position = some found → found.isStored = true)
    (h : inOrder (chosen.map (Branch.save db)) entity log = ⟨.ok (), entity', log'⟩) {found : Entity}
    (hfound : entity'.recordAt? position = some found) : found.isStored = true := by
  obtain ⟨before, after, rfl⟩ := List.append_of_mem hbranch
  rw [List.map_append, List.map_cons] at h
  obtain ⟨current, sent, current', sent', hbefore, hown, hafter⟩ := run_inOrder_middle h
  have hcurrent := grown_of_run (accounted_steps (List.subset_append_left _ _) hsteps) hbefore
  have hcurrent' := Registry.grown_trans hcurrent
    (grown_of_run (accounted_of_grown hcurrent (hsteps branch hbranch)) hown)
  have hrest : after ⊆ before ++ branch :: after := by simp
  have hlater := grown_of_run
    (accounted_of_grown hcurrent' (accounted_steps hrest hsteps)) hafter
  exact Registry.stored_of_grown hlater (hsave current sent current' sent' hcurrent hown) hfound

theorem isStored_of_run_save (h : db.save tree entity log = ⟨.ok (), entity', log'⟩) :
    entity'.isStored = true := by
  obtain ⟨branches, prepared, before, persisted, after, -, -, hpersist, hothers⟩ := run_save h
  refine run_inOrder (P := fun entity : Entity => entity.isStored = true)
    (fun step hstep current sent current' sent' hrun hcurrent => ?_) hothers
    (run_persist hpersist).isStored
  obtain ⟨branch, hbranch, rfl⟩ := List.mem_map.mp hstep
  have hlater : branch.relation.isBelongsTo = false := by
    simpa [Branch.comesFirst] using (List.mem_filter.mp hbranch).2
  rw [isStored, (Relation.run_save_later hlater hrun).snapshot]
  exact hcurrent

/-- The stages of a save that succeeds, each of which only lets the graph grow. -/
theorem grown_stages (hties : db.registry.NamesTies tree entity)
    (h : db.save tree entity log = ⟨.ok (), entity', log'⟩) :
    ∃ branches prepared before persisted after, db.branches tree entity.model = .ok branches ∧
      (inOrder ((branches.filter fun b => b.comesFirst).map (Branch.save db)) entity log =
        ⟨.ok (), prepared, before⟩ ∧
      inOrder ((branches.filter fun b => !b.comesFirst).map (Branch.save db)) persisted after =
        ⟨.ok (), entity', log'⟩) ∧
      (∀ branch ∈ branches, (branch.save db).Accounted db recordAt? entity ∧
        (branch.save db).Accounted db recordAt? persisted) ∧
      db.registry.Grown entity.recordAt? persisted.recordAt? ∧
      db.registry.Grown prepared.recordAt? entity'.recordAt? := by
  obtain ⟨branches, prepared, before, persisted, after, hbranches, hparents, hpersist, hothers⟩ :=
    run_save h
  have hsteps := accounted_branches (accounted_below tree) hties hbranches
  have hprepared := grown_of_run (accounted_steps (List.filter_subset_self _) hsteps) hparents
  have hown := grown_of_run accounted_persist hpersist
  have hpersisted := Registry.grown_trans hprepared hown
  have hlater := fun branch hbranch => accounted_of_grown hpersisted (hsteps branch hbranch)
  have hrest := grown_of_run (accounted_steps (List.filter_subset_self _) hlater) hothers
  exact ⟨branches, prepared, before, persisted, after, hbranches, ⟨hparents, hothers⟩,
    fun branch hbranch => ⟨hsteps branch hbranch, hlater branch hbranch⟩, hpersisted,
    Registry.grown_trans hown hrest⟩

/-- A save that succeeds leaves nothing new where its tree leads, by induction on the way there. -/
theorem stored_of_run_save {position : Position} {sub : EmbedTree} {found : Entity}
    (hties : db.registry.NamesTies tree entity)
    (h : db.save tree entity log = ⟨.ok (), entity', log'⟩)
    (hleads : tree.Leads (position.map Prod.fst) sub)
    (hfound : entity'.recordAt? position = some found) : found.isStored = true := by
  induction position generalizing tree entity entity' log log' found with
  | nil =>
      cases hfound
      exact (isStored_record entity').trans (isStored_of_run_save h)
  | cons step rest ih =>
      obtain ⟨name, i⟩ := step
      obtain ⟨branches, prepared, before, persisted, after, hbranches, ⟨hparents, hothers⟩, hsteps,
        hpersisted, hprepared⟩ := grown_stages hties h
      cases hleads with
      | @step _ below _ _ _ hentry hrest =>
          obtain ⟨⟨relation, saveBelow⟩, hbranch, hrelation, hsaveBelow⟩ :=
            exists_of_mem_left (branches_forall₂ hbranches) hentry
          obtain ⟨tie, rfl⟩ := Registry.tie_of_namesTies hties hentry hrelation
          obtain rfl : tie.name = name := Registry.name_of_relation hrelation
          subst hsaveBelow
          -- before or after the entity itself, the branch meets a graph that has only grown
          have hsave : ∀ current sent current' sent',
              db.registry.Grown entity.recordAt? current.recordAt? →
              (Branch.mk (.tie tie) (db.save below)).save db current sent =
                ⟨.ok (), current', sent'⟩ →
              ∀ found, current'.recordAt? ((tie.name, i) :: rest) = some found →
                found.isStored = true := by
            intro current sent current' sent' hcurrent hrun found
            refine stored_of_run_branch ⟨_, _, hrelation⟩ ?_ hrun i
            intro related hrelated later hlater related' sent sent' hrun found hfound
            have htiesBelow := Registry.namesTies_below
              (Registry.namesTies_of_grown hcurrent hties) hentry hrelated
            exact ih (Registry.namesTies_of_grown hlater htiesBelow) hrun hrest hfound
          cases hfirst : (Relation.tie tie).isBelongsTo with
          | true =>
              refine Registry.stored_of_grown hprepared (fun own hown => ?_) hfound
              exact stored_of_run_steps
                (fun branch hmem => (hsteps branch (List.mem_of_mem_filter hmem)).1)
                (List.mem_filter.mpr ⟨hbranch, hfirst⟩) hsave hparents hown
          | false =>
              refine stored_of_run_steps
                (fun branch hmem => (hsteps branch (List.mem_of_mem_filter hmem)).2)
                (List.mem_filter.mpr ⟨hbranch, by simp [Branch.comesFirst, hfirst]⟩)
                (fun current sent current' sent' hcurrent => ?_) hothers hfound
              exact hsave current sent current' sent' (Registry.grown_trans hpersisted hcurrent)

/-! ## Calls until one succeeds -/

/-- A save is called until it succeeds, each time with what the last call left. -/
inductive Retried (db : Database) (tree : EmbedTree) : Entity → Log → Entity → Log → Prop
  | saved {entity entity' : Entity} {log log' : Log}
      (run : db.save tree entity log = ⟨.ok (), entity', log'⟩) :
      Retried db tree entity log entity' log'
  | failed {entity left entity' : Entity} {log sent log' : Log} {error : Error}
      (run : db.save tree entity log = ⟨.error error, left, sent⟩)
      (again : Retried db tree left sent entity' log') : Retried db tree entity log entity' log'

theorem accounts_of_run {result : Attempt Unit} (hties : db.registry.NamesTies tree entity)
    (hrun : db.save tree entity log = ⟨result, entity', log'⟩) :
    ∃ inserted, db.Accounts entity.recordAt? entity'.recordAt? log log' inserted := by
  obtain ⟨inserted, haccounts⟩ := accounted_save hties entity (Registry.grown_refl _ _) log
  rw [hrun] at haccounts
  exact ⟨inserted, haccounts⟩

theorem accounts_of_retried (hties : db.registry.NamesTies tree entity)
    (h : db.Retried tree entity log entity' log') :
    ∃ inserted, db.Accounts entity.recordAt? entity'.recordAt? log log' inserted ∧
      ∀ position found sub, entity'.recordAt? position = some found →
        tree.Leads (position.map Prod.fst) sub → found.isStored = true := by
  induction h with
  | saved run =>
      obtain ⟨inserted, haccounts⟩ := accounts_of_run hties run
      exact ⟨inserted, haccounts, fun position found sub hfound hleads =>
        stored_of_run_save hties run hleads hfound⟩
  | failed run _ ih =>
      obtain ⟨inserted, hfirst⟩ := accounts_of_run hties run
      obtain ⟨more, hsecond, hstored⟩ := ih (Registry.namesTies_of_grown hfirst.grown hties)
      exact ⟨inserted ++ more, hfirst.trans hsecond, hstored⟩

/-- A new record that is stored afterwards was inserted, and only once. -/
theorem Accounts.count_eq_one {before after : Position → Option Entity}
    {inserted : List (Position × String)} (h : db.Accounts before after log log' inserted)
    {position : Position} {found : Entity} (hbefore : before position = some found)
    (hnew : found.isStored = false)
    (hafter : ∀ found', after position = some found' → found'.isStored = true) :
    (inserted.map Prod.fst).count position = 1 := by
  obtain ⟨found', hfound', -, hstored⟩ := h.exists_after hbefore
  rcases hstored.mp (hafter found' hfound') with hold | hmem
  · rw [hnew] at hold
    cases hold
  · exact List.count_eq_one_of_mem h.nodup hmem

end Database

namespace Gallery

/-- A database that refuses one statement, and numbers the rows that are inserted. -/
def refusing (turn : Nat) : Database :=
  ⟨⟨Dialect.generic.platform,
    fun log _ => if log.length = turn then .error "refused" else .ok [],
    fun log => some (.integer (.ofNat log.length))⟩, registry⟩

def newGallery : Entity :=
  (Entity.new "Gallery").setRelation "images"
    (.many ⟨"Image", [Entity.new "Image", Entity.new "Image"]⟩)

/-- The second image is refused. -/
def refused : Outcome Entity Unit :=
  (refusing 3).save (.cons "images" .nil .nil) newGallery []

def repeated : Outcome Entity Unit :=
  (refusing 3).save (.cons "images" .nil .nil) refused.subject refused.log

end Gallery

/-- Whatever becomes of a save, the new entities whose inserts were acknowledged are stored, and the
others are still new.  When it is called until it succeeds, every new entity that the tree reaches is
inserted once. -/
theorem save_can_be_retried {db : Database} {tree : EmbedTree} {entity : Entity}
    (hties : db.registry.NamesTies tree entity) :
    (∀ result entity' log log', db.save tree entity log = ⟨result, entity', log'⟩ →
      ∃ inserted, db.Accounts entity.recordAt? entity'.recordAt? log log' inserted) ∧
    ∀ entity' log log', db.Retried tree entity log entity' log' →
      ∃ inserted, db.Accounts entity.recordAt? entity'.recordAt? log log' inserted ∧
        ∀ position found sub, entity.recordAt? position = some found → found.isStored = false →
          tree.Leads (position.map Prod.fst) sub → (inserted.map Prod.fst).count position = 1 := by
  refine ⟨fun result entity' log log' hrun => Database.accounts_of_run hties hrun,
    fun entity' log log' hretried => ?_⟩
  obtain ⟨inserted, haccounts, hstored⟩ := Database.accounts_of_retried hties hretried
  refine ⟨inserted, haccounts, fun position found sub hfound hnew hleads => ?_⟩
  exact haccounts.count_eq_one hfound hnew fun found' hfound' =>
    hstored position found' sub hfound' hleads

open Gallery in
/-- A gallery is saved again after its second image was refused. -/
theorem save_gallery_again :
    refused.log = ["INSERT INTO \"gallery\" DEFAULT VALUES",
      "SELECT \"id\" FROM \"image\" WHERE \"gallery_id\" = 1",
      "INSERT INTO \"image\" (\"gallery_id\") VALUES (1)",
      "INSERT INTO \"image\" (\"gallery_id\") VALUES (1)"] ∧
    repeated.log = refused.log ++ ["SELECT \"id\" FROM \"image\" WHERE \"gallery_id\" = 1",
      "INSERT INTO \"image\" (\"gallery_id\") VALUES (1)"] ∧
    ∃ inserted, (refusing 3).Accounts newGallery.recordAt? repeated.subject.recordAt? []
        repeated.log inserted ∧
      (inserted.map Prod.fst).count [] = 1 ∧ (inserted.map Prod.fst).count [("images", 0)] = 1 ∧
      (inserted.map Prod.fst).count [("images", 1)] = 1 := by
  have htie : (refusing 3).registry.relation newGallery.model "images" = .ok (.tie images) := by rfl
  have hfirst : (refusing 3).save (.cons "images" .nil .nil) newGallery [] =
      ⟨.error (.backend "refused"), refused.subject, refused.log⟩ := by rfl
  have hsecond : (refusing 3).save (.cons "images" .nil .nil) refused.subject refused.log =
      ⟨.ok (), repeated.subject, repeated.log⟩ := by rfl
  have hties := Registry.namesTies_leaf htie
  have hretried := Database.Retried.failed hfirst (.saved hsecond)
  obtain ⟨inserted, haccounts, hcount⟩ := (save_can_be_retried hties).2 _ _ _ hretried
  have himages : EmbedTree.Leads (.cons "images" .nil .nil) ["images"] .nil :=
    .step List.mem_cons_self (.here .nil)
  exact ⟨by rfl, by rfl, inserted, haccounts, hcount [] _ _ rfl rfl (.here _),
    hcount [("images", 0)] _ _ rfl rfl himages, hcount [("images", 1)] _ _ rfl rfl himages⟩

end RecordMapper
