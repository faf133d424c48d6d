import RecordMapper.Proofs.Session.Claiming
import RecordMapper.Proofs.Session.Provenance

/-!
# What a cascade sends

Whatever tree of relations an entity is saved with, the statements that can be sent are selections of
stored rows, writes of single entities, and deletions of rows that are no longer related.
`AllowsSaves` lists them with all that is known where each of them is sent, and
`sendsFrom_save_of_allows` says that there are no others.
-/

namespace RecordMapper

namespace Database

/-- The property holds of every statement that the saving of an entity with a tree can send. -/
structure AllowsSaves (db : Database) (tree : EmbedTree) (entity : Entity)
    (allowed : String → Prop) : Prop where
  insert {written : Entity} {schema : Schema} {sql : String} : db.Persists tree entity written →
    db.registry.schema written.model = .ok schema → written.isStored = false →
    (schema.insertOf written).render db.dialect = .ok sql → allowed sql
  update {written : Entity} {schema : Schema} {id : Value} {sql : String} :
    db.Persists tree entity written → db.registry.schema written.model = .ok schema →
    written.isStored = true → (schema.changedValues written).isEmpty = false →
    written.storedKey schema.keyName schema.model = .ok id →
    (schema.updateOf (schema.changedValues written) id).render db.dialect = .ok sql → allowed sql
  selectChildren {tie : Tie} {owner : Entity} {target : Schema} {sql : String} :
    db.OwnsChildren tree entity tie owner target →
    db.SelectsOwned target tie owner [.ofPath target.keyName] sql → allowed sql
  deleteMissing {tie : Tie} {owner : Entity} {target : Schema} {ids : List Value} {sql : String} :
    db.OwnsChildren tree entity tie owner target → db.FindsIds target tie owner ids →
    ids.isEmpty = false →
    (target.deleteOf (.inList (.ofPath target.keyName) ids)).render db.dialect = .ok sql →
    allowed sql
  selectPivots {route : Tie} {far : Relation} {below : EmbedTree} {owner : Entity} {pivot : Schema}
    {sql : String} : db.OwnsPivots tree entity route far .diff below owner pivot →
    db.SelectsOwned pivot route owner [] sql → allowed sql
  deleteStale {route : Tie} {far : Relation} {below : EmbedTree} {owner : Entity} {pivot : Schema}
    {stale : List Row} {sql : String} :
    db.OwnsPivots tree entity route far .diff below owner pivot →
    db.FindsRows pivot route owner stale → stale.isEmpty = false →
    (pivot.deleteOf (staleCondition pivot.declaredKey? stale)).render db.dialect = .ok sql →
    allowed sql
  deleteOwned {route : Tie} {far : Relation} {below : EmbedTree} {owner : Entity} {pivot : Schema}
    {owned : Condition} {sql : String} :
    db.OwnsPivots tree entity route far .flush below owner pivot →
    (Relation.tie route).matchCondition owner = .ok owned →
    (pivot.deleteOf owned).render db.dialect = .ok sql → allowed sql

/-- The statements that belong to the saving of entities with their relations. -/
inductive SaveStatement (db : Database) : String → Prop
  | select (select : Select) {sql : String} (h : select.render db.dialect = .ok sql) :
      SaveStatement db sql
  | insert (schema : Schema) (entity : Entity) {sql : String}
      (h : (schema.insertOf entity).render db.dialect = .ok sql) : SaveStatement db sql
  | update (schema : Schema) {changes : List (String × Value)} {id : Value} {sql : String}
      (hchanges : changes.isEmpty = false)
      (h : (schema.updateOf changes id).render db.dialect = .ok sql) : SaveStatement db sql
  | deleteMissing (target : Schema) {ids : List Value} {sql : String}
      (hids : ids.isEmpty = false)
      (h : (target.deleteOf (.inList (.ofPath target.keyName) ids)).render db.dialect = .ok sql) :
      SaveStatement db sql
  | deleteOwned (pivot : Schema) {route : Relation} {owner : Entity} {owned : Condition}
      {sql : String} (howned : route.matchCondition owner = .ok owned)
      (h : (pivot.deleteOf owned).render db.dialect = .ok sql) : SaveStatement db sql
  | deleteStale (pivot : Schema) {stale : List Row} {sql : String} (hstale : stale.isEmpty = false)
      (h : (pivot.deleteOf (staleCondition pivot.declaredKey? stale)).render db.dialect = .ok sql) :
      SaveStatement db sql

theorem allowsSaves_saveStatement (db : Database) (tree : EmbedTree) (entity : Entity) :
    db.AllowsSaves tree entity db.SaveStatement where
  insert _ _ _ h := .insert _ _ h
  update _ _ _ hchanges _ h := .update _ hchanges h
  selectChildren := fun _ ⟨_, _, h⟩ => .select _ h
  deleteMissing _ _ hids h := .deleteMissing _ hids h
  selectPivots := fun _ ⟨_, _, h⟩ => .select _ h
  deleteStale _ _ hstale h := .deleteStale _ hstale h
  deleteOwned _ howned h := .deleteOwned _ howned h

end Database

open Edit

variable {db : Database} {tree below : EmbedTree} {entity owner : Entity} {allowed : String → Prop}

namespace Database

theorem AllowsSaves.sendsFrom_update (saves : db.AllowsSaves tree entity allowed) {written : Entity}
    (hpersists : db.Persists tree entity written) {schema : Schema}
    (hschema : db.registry.schema written.model = .ok schema) (hstored : written.isStored = true)
    (log : Log) : (db.update schema written).SendsFrom allowed written log := by
  simp only [Database.update]
  split
  next => exact extends_refl log
  next hchanges =>
      refine sendsFrom_lift_bind fun id hid => Database.sendsFrom_execute_bind (fun sql hsql => ?_)
        fun _ _ _ _ => extends_refl _
      exact saves.update hpersists hschema hstored (by simpa using hchanges) hid hsql

theorem AllowsSaves.sendsFrom_persist (saves : db.AllowsSaves tree entity allowed) {written : Entity}
    (hpersists : db.Persists tree entity written) (log : Log) :
    db.persist.SendsFrom allowed written log := by
  refine sendsFrom_subject_bind (sendsFrom_lift_bind fun schema hschema => ?_)
  split
  next hstored => exact saves.sendsFrom_update hpersists hschema hstored log
  next hnew =>
      refine Database.sendsFrom_execute_bind (fun sql hsql => ?_) fun _ _ _ _ => extends_refl _
      exact saves.insert hpersists hschema (by simpa using hnew) hsql

end Database

namespace Tie

variable {tie : Tie} {save : Edit Entity Unit}

theorem sendsFrom_saveBelongsTo
    (hsave : ∀ parent ∈ owner.attached tie.name, ∀ log, save.SendsFrom allowed parent log)
    (log : Log) : (tie.saveBelongsTo save).SendsFrom allowed owner log := by
  have hone : (onOne tie.name do
      save
      (← Edit.subject).requireKey tie.targetKey tie.target tie.name).SendsFrom allowed owner log :=
    sendsFrom_onOne fun parent hparent => sendsFrom_bind (hsave parent hparent log)
      fun _ _ sent _ => extends_refl sent
  refine sendsFrom_bind hone fun saved _ sent _ => ?_
  cases saved with
  | none => exact extends_refl sent
  | some key => exact extends_refl sent

theorem sendsFrom_saveHasOne
    (hsave : ∀ key child, owner.requireKey tie.sourceKey tie.source tie.name = .ok key →
      child ∈ owner.attached tie.name →
      ∀ log, save.SendsFrom allowed (child.set tie.targetKey key) log)
    (log : Log) : (tie.saveHasOne save).SendsFrom allowed owner log := by
  refine sendsFrom_subject_bind (sendsFrom_lift_bind fun key hkey => ?_)
  refine sendsFrom_bind (sendsFrom_onOne fun child hchild => ?_) fun _ _ sent _ => extends_refl sent
  exact sendsFrom_modify_bind (hsave key child hkey hchild log)

theorem sendsFrom_saveChild {child : Entity} {key : Value} {log : Log} (childKey : String)
    (hsave : save.SendsFrom allowed (child.set tie.targetKey key) log) :
    (tie.saveChild key childKey save).SendsFrom allowed child log :=
  sendsFrom_modify_bind (sendsFrom_bind hsave fun _ _ sent _ => extends_refl sent)

theorem exists_row_of_mem_missingIds {column : String} {stored : List Row}
    {present : List (Option Key)} {id : Value} (h : id ∈ missingIds column stored present) :
    ∃ row ∈ stored, row.get? column = some id :=
  List.mem_filterMap.mp (List.mem_of_mem_filter h)

theorem sendsFrom_deleteMissing (saves : db.AllowsSaves tree entity allowed) {target : Schema}
    {ids : List Value} (howns : db.OwnsChildren tree entity tie owner target)
    (hids : db.FindsIds target tie owner ids) (subject : Entity) (log : Log) :
    (deleteMissing db target ids).SendsFrom allowed subject log := by
  unfold deleteMissing
  split
  next => exact extends_refl log
  next hsome =>
      refine Database.sendsFrom_execute_bind (fun sql hsql => ?_) fun _ _ _ _ => extends_refl _
      exact saves.deleteMissing howns hids (by simpa using hsome) hsql

theorem sendsFrom_saveHasMany (saves : db.AllowsSaves tree entity allowed)
    (hreached : ∃ below, db.Reaches tree entity (.tie tie) below owner) (hkind : tie.kind = .hasMany)
    (hsave : ∀ key child, owner.requireKey tie.sourceKey tie.source tie.name = .ok key →
      child ∈ owner.attached tie.name →
      ∀ log, save.SendsFrom allowed (child.set tie.targetKey key) log)
    (log : Log) : (tie.saveHasMany db save).SendsFrom allowed owner log := by
  refine sendsFrom_subject_bind (sendsFrom_lift_bind fun ownerKey hkey =>
    sendsFrom_lift_bind fun target htarget => sendsFrom_lift_bind fun _ _ =>
    sendsFrom_lift_bind fun related hrelated => ?_)
  have howns : db.OwnsChildren tree entity tie owner target := ⟨hreached, hkind, htarget⟩
  refine Database.sendsFrom_execute_bind
    (fun sql hsql => saves.selectChildren howns ⟨related, hrelated, hsql⟩)
    fun select stored hselect hstored => ?_
  refine sendsFrom_bind (sendsFrom_onMany fun children hchildren => sendsFrom_forEach
    (fun child hchild log => sendsFrom_saveChild target.keyName ?_) _) fun present middle sent _ => ?_
  · have hattached : owner.attached tie.name = children.entities :=
      Entity.attached_of_relation? (Entity.relation?_of_many hchildren)
    exact hsave ownerKey child hkey (hattached ▸ hchild) log
  · refine sendsFrom_deleteMissing saves howns ⟨select, ⟨related, hrelated, hselect⟩, ?_⟩ middle sent
    intro id hid
    obtain ⟨row, hrow, hvalue⟩ := exists_row_of_mem_missingIds hid
    exact ⟨row, ⟨log, stored, hstored, hrow⟩, hvalue⟩

theorem sendsFrom_save (saves : db.AllowsSaves tree entity allowed)
    (hreached : ∃ below, db.Reaches tree entity (.tie tie) below owner)
    (hsave : ∀ related, (Relation.tie tie).Hands owner related →
      ∀ log, save.SendsFrom allowed related log)
    (log : Log) : (tie.save db save).SendsFrom allowed owner log := by
  unfold Tie.save
  cases hkind : tie.kind with
  | belongsTo =>
      exact sendsFrom_saveBelongsTo (fun parent hparent => hsave parent (.parent hkind hparent)) log
  | hasOne =>
      refine sendsFrom_saveHasOne (fun key child hkey hchild => hsave _ (.child ?_ hkey hchild)) log
      exact fun h => by cases hkind.symm.trans h
  | hasMany =>
      refine sendsFrom_saveHasMany saves hreached hkind
        (fun key child hkey hchild => hsave _ (.child ?_ hkey hchild)) log
      exact fun h => by cases hkind.symm.trans h

end Tie

namespace Edit

variable {route : Tie} {far : Relation} {pivot : Schema}

theorem sendsFrom_preparePivot {ownerKey : Value} {saveFar : Edit Entity Unit} {pivot : Entity}
    {log : Log} (hsave : ∀ related ∈ pivot.attached far.name, saveFar.SendsFrom allowed related log) :
    (preparePivot route far ownerKey saveFar).SendsFrom allowed pivot log := by
  refine sendsFrom_subject_bind ?_
  split
  · refine sendsFrom_bind (sendsFrom_onOne fun related hrelated =>
      sendsFrom_bind (hsave related hrelated) fun _ _ sent _ => extends_refl sent)
      fun saved _ sent _ => ?_
    cases saved with
    | none => exact extends_refl sent
    | some key => exact extends_refl sent
  · exact extends_refl log

theorem sendsFrom_flushPivots (saves : db.AllowsSaves tree entity allowed) {owned : Condition}
    (howns : db.OwnsPivots tree entity route far .flush below owner pivot)
    (howned : (Relation.tie route).matchCondition owner = .ok owned) {prepared : List Entity}
    (hprepared : ∀ entity ∈ prepared, db.Prepares route far below owner entity) (log : Log) :
    (flushPivots db pivot owned).SendsFrom allowed prepared log := by
  refine Database.sendsFrom_execute_bind (fun sql hsql => saves.deleteOwned howns howned hsql)
    fun _ _ _ _ => ?_
  refine sendsFrom_bind (sendsFrom_forEach (fun written hwritten log => ?_) _)
    fun _ _ sent _ => extends_refl sent
  exact sendsFrom_modify_bind (saves.sendsFrom_persist
    (.pivot howns (hprepared written hwritten) (.renewed .flush)) log)

theorem sendsFrom_deleteStale (saves : db.AllowsSaves tree entity allowed) {stale : List Row}
    (howns : db.OwnsPivots tree entity route far .diff below owner pivot)
    (hfound : db.FindsRows pivot route owner stale) (subject : List Entity) (log : Log) :
    (deleteStale db pivot stale).SendsFrom allowed subject log := by
  unfold deleteStale
  split
  next => exact extends_refl log
  next hstale =>
      refine Database.sendsFrom_execute_bind (fun sql hsql => ?_) fun _ _ _ _ => extends_refl _
      exact saves.deleteStale howns hfound (by simpa using hstale) hsql

theorem sendsFrom_settlePivot (saves : db.AllowsSaves tree entity allowed) {prepared : Entity}
    (howns : db.OwnsPivots tree entity route far .diff below owner pivot)
    (hprepared : db.Prepares route far below owner prepared) {row? : Option Row}
    (hrow : ∀ row, row? = some row → db.FindsRows pivot route owner [row]) (log : Log) :
    (settlePivot db pivot.declaredKey? row?).SendsFrom allowed prepared log := by
  refine sendsFrom_modify_bind (saves.sendsFrom_persist (.pivot howns hprepared ?_) log)
  cases row? with
  | some row => exact .adopted (hrow row rfl)
  | none =>
      by_cases hstored : prepared.isStored = true
      · simp only [hstored, if_true]
        exact .renewed .diff
      · simp only [hstored]
        exact .fresh (by simpa using hstored)

theorem sendsFrom_diffPivots (saves : db.AllowsSaves tree entity allowed) {owned : Condition}
    (howns : db.OwnsPivots tree entity route far .diff below owner pivot)
    (howned : (Relation.tie route).matchCondition owner = .ok owned) {prepared : List Entity}
    (hprepared : ∀ entity ∈ prepared, db.Prepares route far below owner entity) (log : Log) :
    (diffPivots db pivot far.sourceKey owned).SendsFrom allowed prepared log := by
  have hselects : ∀ sql, (pivot.select.addFilter owned).render db.dialect = .ok sql →
      db.SelectsOwned pivot route owner [] sql := fun sql hsql => ⟨owned, howned, hsql⟩
  refine Database.sendsFrom_execute_bind (fun sql hsql => saves.selectPivots howns (hselects sql hsql))
    fun select rows hselect hrows => sendsFrom_lift_bind fun stored hstored => ?_
  -- The pivots take over some of the stored rows and leave the others.
  have hperm := keptRows_append_staleRows_perm pivot.declaredKey? far.sourceKey prepared stored
  have hfound : ∀ found : List Row, found ⊆ stored → db.FindsRows pivot route owner found := by
    intro found hfound
    refine ⟨select, hselects select hselect, fun row hrow => ?_⟩
    obtain ⟨answered, hanswered, hcast⟩ :=
      exists_of_mem_right (attempt_mapM_eq_ok.mp hstored) (hfound hrow)
    exact ⟨answered, ⟨log, rows, hrows, hanswered⟩, hcast⟩
  refine sendsFrom_subject_bind (sendsFrom_bind (sendsFrom_forEachWith (fun pair hpair log => ?_) _)
    fun _ middle sent _ => ?_)
  · obtain ⟨hpivot, htaken⟩ := List.of_mem_zip hpair
    refine sendsFrom_settlePivot saves howns (hprepared _ hpivot) (fun row hrow => hfound [row] ?_) log
    have hkept : row ∈ keptRows pivot.declaredKey? far.sourceKey prepared stored :=
      List.mem_filterMap.mpr ⟨pair.2, htaken, hrow⟩
    simpa using hperm.subset (List.mem_append_left _ hkept)
  · exact sendsFrom_deleteStale saves howns
      (hfound _ fun row hrow => hperm.subset (List.mem_append_right _ hrow)) middle sent

end Edit

namespace Relation

theorem sendsFrom_saveThrough (saves : db.AllowsSaves tree entity allowed) {mark correlate : String}
    {route : Tie} {far : Relation} {mode : PivotMode}
    (hreached : db.Reaches tree entity (.through mark correlate route far mode) below owner)
    (hsave : ∀ related, (Relation.through mark correlate route far mode).Hands owner related →
      ∀ log, (db.save below).SendsFrom allowed related log)
    (log : Log) : (saveThrough db route far mode (db.save below)).SendsFrom allowed owner log := by
  refine sendsFrom_subject_bind ?_
  split
  next =>
      refine sendsFrom_lift_bind fun ownerKey hkey => sendsFrom_lift_bind fun pivot hpivot =>
        sendsFrom_lift_bind fun owned howned => sendsFrom_onMany fun pivots hpivots => ?_
      have howns : db.OwnsPivots tree entity route far mode below owner pivot :=
        ⟨⟨mark, correlate, hreached⟩, hpivot⟩
      have hattached : owner.attached route.name = pivots.entities :=
        Entity.attached_of_relation? (Entity.relation?_of_many hpivots)
      refine sendsFrom_bind (sendsFrom_forEach (fun before hbefore log => ?_) _)
        fun _ prepared sent hrun => ?_
      · exact sendsFrom_preparePivot fun related hrelated =>
          hsave related (.far (hattached ▸ hbefore) hrelated) log
      · have hforall := run_forEach_forall₂ (fun before prepared => ∃ log sent,
            preparePivot route far ownerKey (db.save below) before log = ⟨.ok (), prepared, sent⟩)
          (fun _ log _ _ sent h => ⟨log, sent, h⟩) hrun
        have hprepared : ∀ entity ∈ prepared, db.Prepares route far below owner entity := by
          intro written hwritten
          obtain ⟨before, hbefore, log, sent, hprepare⟩ := exists_of_mem_right hforall hwritten
          exact ⟨ownerKey, before, log, sent, hkey, hattached ▸ hbefore, hprepare⟩
        cases mode with
        | flush => exact sendsFrom_flushPivots saves howns howned hprepared sent
        | diff => exact sendsFrom_diffPivots saves howns howned hprepared sent
  next => exact extends_refl log

theorem sendsFrom_save (saves : db.AllowsSaves tree entity allowed) {own : EmbedTree} {start : Entity}
    {relation : Relation} (hsaved : db.Saves tree entity own start)
    (hknown : ∃ name, (name, below) ∈ own.entries ∧
      db.registry.relation start.model name = .ok relation)
    (htakes : db.Takes own start (relation.save db (db.save below)) owner)
    (hbelow : ∀ related, db.Saves tree entity below related →
      ∀ log, (db.save below).SendsFrom allowed related log)
    (log : Log) : (relation.save db (db.save below)).SendsFrom allowed owner log := by
  refine sendsFrom_subject_bind ?_
  split
  next hloaded =>
      have htaken : db.TakesRelation own start relation below owner := ⟨hknown, htakes, hloaded⟩
      have hreached : db.Reaches tree entity relation below owner := ⟨own, start, hsaved, htaken⟩
      have hhanded : ∀ related, relation.Hands owner related →
          ∀ log, (db.save below).SendsFrom allowed related log :=
        fun related hrelated => hbelow related (.onward hsaved htaken hrelated)
      cases relation with
      | tie tie => exact Tie.sendsFrom_save saves ⟨below, hreached⟩ hhanded log
      | through mark correlate route far mode =>
          exact sendsFrom_saveThrough saves hreached hhanded log
  next => exact extends_refl log

end Relation

namespace Database

theorem sendsFrom_saveWith (saves : db.AllowsSaves tree entity allowed) {own : EmbedTree}
    (hbelow : ∀ entry ∈ own.entries, ∀ related, db.Saves tree entity entry.2 related →
      ∀ log, (db.save entry.2).SendsFrom allowed related log)
    {start : Entity} (hsaved : db.Saves tree entity own start) (log : Log) :
    (db.save own).SendsFrom allowed start log := by
  cases hbranches : db.branches own start.model with
  | error error =>
      unfold Database.save saveWith
      refine sendsFrom_subject_bind ?_
      rw [hbranches]
      exact extends_refl log
  | ok branches =>
      unfold SendsFrom
      rw [save_apply hbranches]
      refine sendsFrom_inOrder fun before step after current sent hsteps hbefore => ?_
      have htakes : db.Takes own start step current :=
        ⟨branches, before, after, log, sent, hbranches, hsteps, hbefore⟩
      rcases eq_persist_or_branch hsteps with rfl | ⟨branch, hbranch, rfl⟩
      · exact saves.sendsFrom_persist (.own hsaved htakes) sent
      · obtain ⟨⟨name, below⟩, hentry, hrelation, hsave⟩ :=
          exists_of_mem_right (branches_forall₂ hbranches) hbranch
        obtain ⟨relation, saveBelow⟩ := branch
        subst hsave
        exact Relation.sendsFrom_save saves hsaved ⟨name, hentry, hrelation⟩ htakes
          (hbelow (name, below) hentry) sent

/-- By induction on the tree: what is saved below an entity is saved with a smaller tree. -/
theorem sendsFrom_below (saves : db.AllowsSaves tree entity allowed) (own : EmbedTree) :
    ∀ entry ∈ own.entries, ∀ related, db.Saves tree entity entry.2 related →
      ∀ log, (db.save entry.2).SendsFrom allowed related log := by
  induction own with
  | nil => nofun
  | cons name below rest ihBelow ihRest =>
      intro entry hentry related hrelated log
      rcases List.mem_cons.mp hentry with rfl | hmem
      · exact sendsFrom_saveWith saves ihBelow hrelated log
      · exact ihRest entry hmem related hrelated log

theorem sendsFrom_save_of_allows (saves : db.AllowsSaves tree entity allowed) (log : Log) :
    (db.save tree).SendsFrom allowed entity log :=
  sendsFrom_saveWith saves (sendsFrom_below saves tree) .self log

theorem sendsFrom_saveAll {allowed : Entity → String → Prop}
    (h : ∀ entity log, (db.save tree).SendsFrom (allowed entity) entity log) (entities : List Entity)
    (log : Log) : (db.saveAll tree).SendsFrom (fun sql => ∃ entity ∈ entities, allowed entity sql)
      entities log := by
  refine sendsFrom_bind (sendsFrom_forEach (fun entity hentity log => ?_) log)
    fun _ _ sent _ => extends_refl sent
  exact extends_mono (fun sql hsql => ⟨entity, hentity, hsql⟩) (h entity log)

theorem sends_save (db : Database) (tree : EmbedTree) : (db.save tree).Sends db.SaveStatement :=
  fun entity log => sendsFrom_save_of_allows (db.allowsSaves_saveStatement tree entity) log

end Database

end RecordMapper
