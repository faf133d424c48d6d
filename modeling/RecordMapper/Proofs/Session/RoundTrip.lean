import RecordMapper.Proofs.Session.Children
import RecordMapper.Proofs.Session.Pivots
import RecordMapper.Proofs.Session.Reloading
import RecordMapper.Proofs.Session.Unmodified

/-!
# Loading a graph and saving it

A graph that is saved as it was loaded sends nothing but selections if it was read with the keys that
a save looks for.  For the relations of a single name this is also necessary: a save that succeeds
deletes the stored children whose ids were not fetched, and writes the pivots without far keys anew.
-/

namespace RecordMapper

open Edit

theorem allowed_of_extends {allowed other : String → Prop} {log middle more : Log}
    (hmiddle : Extends other log middle) (h : Extends allowed log (middle ++ more)) :
    ∀ sql ∈ more, allowed sql := by
  intro sql hsql
  obtain ⟨first, rfl, -⟩ := hmiddle
  obtain ⟨added, hadded, hallowed⟩ := h
  rw [List.append_assoc, List.append_cancel_left_eq] at hadded
  apply hallowed
  rw [← hadded]
  exact List.mem_append_right first hsql

theorem extends_later {allowed other other' : String → Prop} {log middle log' : Log}
    (hmiddle : Extends other log middle) (hlater : Extends other' middle log')
    (h : Extends allowed log log') : Extends allowed middle log' := by
  obtain ⟨more, rfl, -⟩ := hlater
  exact ⟨more, rfl, allowed_of_extends hmiddle h⟩

theorem not_isSelection {kind : StatementKind} (hkind : kind ≠ .select) {sql : String}
    (h : kind.begins sql = true) : ¬ IsSelection sql := by
  intro hselect
  exact hkind (StatementKind.begins_unique h hselect)

namespace Entity

variable {db : Database} {entity entity' : Entity}

theorem fieldKey?_of_settles (h : entity.Settles db entity') (field : String) :
    entity'.fieldKey? field = entity.fieldKey? field := by
  cases hvalue : entity.get? field with
  | none =>
      rw [fieldKey?, fieldKey?, hvalue, h.missing field hvalue]
  | some value =>
      apply fieldKey?_of_covers h.covers
      rw [hvalue]
      rfl

end Entity

/-! ## Ids -/

theorem isKeyAmong_of_keyless {entities : List Entity} {field : String} {key : Option Key}
    (h : ∀ entity ∈ entities, entity.fieldKey? field = none) :
    isKeyAmong entities field key = false := by
  cases key with
  | none => rfl
  | some key =>
      rw [isKeyAmong, Option.isSome_some, Bool.true_and, List.any_eq_false]
      intro entity hentity
      rw [h entity hentity]
      exact Bool.false_ne_true

theorem id?_of_storedIds_eq_nil {column : String} {stored : List Row} {row : Row}
    (h : storedIds column stored = []) (hrow : row ∈ stored) : row.id? (some column) = none := by
  rw [Row.id?, Option.bind_some]
  cases hid : row.get? column with
  | none => rfl
  | some id =>
      rw [Option.bind_some, ← Option.not_isSome_iff_eq_none]
      intro hkey
      have hmem : id ∈ storedIds column stored :=
        List.mem_filter.mpr ⟨List.mem_filterMap.mpr ⟨row, hrow, hid⟩, hkey⟩
      rw [h] at hmem
      cases hmem

/-! ## Relations of one name -/

namespace Database

variable {db : Database}

theorem takes_later {name : String} {below : EmbedTree} {relation : Relation}
    {entity persisted : Entity} {log sent : Log}
    (hrelation : db.registry.relation entity.model name = .ok relation)
    (hkind : relation.isBelongsTo = false)
    (hpersist : db.persist entity log = ⟨.ok (), persisted, sent⟩) :
    db.Takes (.cons name below .nil) entity (relation.save db (db.save below)) persisted := by
  refine ⟨[⟨relation, db.save below⟩], [db.persist], [], log, sent,
    branches_cons.mpr ⟨relation, [], hrelation, rfl, rfl⟩, ?_, ?_⟩
  · simp [steps, Branch.comesFirst, Branch.save, hkind]
  · rw [inOrder_cons, bind_apply, hpersist]
    rfl

theorem run_save_relation {name : String} {below : EmbedTree} {relation : Relation}
    {entity later : Entity} {log log' : Log}
    (hrelation : db.registry.relation entity.model name = .ok relation)
    (hkind : relation.isBelongsTo = false) (hsettled : entity.IsSettled db)
    (h : db.save (.cons name below .nil) entity log = ⟨.ok (), later, log'⟩)
    (hreads : Extends IsSelection log log') :
    ∃ sent, relation.save db (db.save below) entity sent = ⟨.ok (), later, log'⟩ ∧
      Extends IsSelection sent log' := by
  obtain ⟨middle, sent, hpersist, hsave⟩ := run_save_other hrelation hkind h
  obtain ⟨hsent, hmiddle⟩ := quiet_persist hsettled log
  have htakes : db.Takes (.cons name below .nil) entity (relation.save db (db.save below)) middle :=
    takes_later hrelation hkind hpersist
  rw [hpersist] at hsent hmiddle
  have hsame : middle = entity := hmiddle () rfl
  rw [hsame] at hsave htakes
  have hlaterSent := Relation.sendsFrom_save
    (db.allowsSaves_saveStatement (.cons name below .nil) entity) .self
    ⟨name, List.mem_cons_self, hrelation⟩ htakes (fun related _ => db.sends_save below related) sent
  rw [SendsFrom, hsave] at hlaterSent
  exact ⟨sent, hsave, extends_later hsent hlaterSent hreads⟩

end Database

namespace ChildrenRun

variable {db : Database} {tie : Tie} {below : EmbedTree} {owner owner' : Entity} {log log' : Log}

theorem deleted_eq_nil (run : ChildrenRun db tie (db.save below) owner log owner' log')
    (hreads : Extends IsSelection log log') : run.deleted = [] := by
  rcases run.log_eq with ⟨hnone, -⟩ | ⟨-, sql, hlog, hsql⟩
  · exact hnone
  · have hselect : Extends db.SaveStatement log (log ++ [run.select]) :=
      extends_snoc (.select _ run.render) log
    have hcascade : Extends db.SaveStatement log run.cascade :=
      extends_trans hselect (run.extends_cascade (db.sends_save below))
    rw [hlog] at hreads
    have hsqlReads : IsSelection sql :=
      allowed_of_extends hcascade hreads sql (List.mem_singleton_self sql)
    exact absurd hsqlReads (not_isSelection (by decide) (Delete.begins_render hsql))

theorem answers (run : ChildrenRun db tie (db.save below) owner log owner' log') :
    tie.Answers db run.target [run.target.keyName] owner run.stored := by
  obtain ⟨value, hvalue, hnull, hcondition⟩ := Tie.ownedSelect_of_matchCondition run.matchCondition
  have hrender := run.render
  rw [hcondition] at hrender
  exact Tie.answers_of_render hvalue hnull hrender run.answer

theorem fieldKey?_after (run : ChildrenRun db tie (db.save below) owner log owner' log')
    (hjoined : ∀ child ∈ owner.attached tie.name, owner.Joined tie.sourceKey child tie.targetKey)
    (hbelow : ∀ child ∈ owner.attached tie.name, child.Clean db below) (field : String) :
    ∀ child' ∈ run.after, ∃ child ∈ owner.attached tie.name,
      child'.fieldKey? field = child.fieldKey? field := by
  have hattached : owner.attached tie.name = run.before.entities :=
    Entity.attached_of_relation? (Entity.relation?_of_many run.many)
  have hsaved := Tie.quiet_saveChildren run.target.keyName
    (fun _ => Database.quiet_save) (fun _ _ hsettles => hsettles.clean below)
    (Entity.get?_of_requireKey run.requireKey).1 (hattached ▸ hjoined) (hattached ▸ hbelow)
    (log ++ [run.select])
  rw [run.children] at hsaved
  have hsettles : List.Forall₂ (Entity.Settles db) run.before.entities run.after :=
    (hsaved.2 run.present rfl).1
  intro child' hchild'
  obtain ⟨child, hchild, hsettle⟩ := exists_of_mem_right hsettles hchild'
  rw [hattached]
  exact ⟨child, hchild, Entity.fieldKey?_of_settles hsettle field⟩

/-- If no child has an id and nothing is deleted, no stored row has an id either. -/
theorem storedIds_eq_nil (run : ChildrenRun db tie (db.save below) owner log owner' log')
    (hnone : ∀ child ∈ run.after, child.fieldKey? run.target.keyName = none)
    (hdeleted : run.deleted = []) : storedIds run.target.keyName run.stored = [] := by
  rw [run.deleted_eq, List.filter_eq_nil_iff] at hdeleted
  refine List.eq_nil_iff_forall_not_mem.mpr fun id hid => hdeleted id hid ?_
  rw [isKeyAmong_of_keyless hnone]
  rfl

end ChildrenRun

namespace Tie

variable {db : Database} {tie : Tie} {below : EmbedTree} {entity later : Entity} {log log' : Log}

/-- A save that only reads finds no stored child with an id, unless the ids were fetched. -/
theorem knowsIds_of_reads (hloads : tie.Loads db entity) (hkind : tie.kind = .hasMany)
    (hisLoaded : entity.isLoaded tie.name = true)
    (hunchanged : (Terms.unchanged db).tie tie entity) (hplain : (Terms.plain db).tie tie entity)
    (hbelow : ∀ child ∈ entity.attached tie.name, child.Clean db below)
    (h : tie.saveHasMany db (db.save below) entity log = ⟨.ok (), later, log'⟩)
    (hreads : Extends IsSelection log log') : tie.KnowsIds db entity := by
  obtain ⟨run⟩ := ChildrenRun.exists_of_run h
  intro target htarget
  by_cases hasks : tie.Asks target.keyName
  · exact .inl hasks
  right
  intro rows hrows row hrow
  have hsame : run.target = target := Except.ok.inj (run.schema.symm.trans htarget)
  subst hsame
  obtain ⟨stored, hattached, hanswers⟩ := exists_stored (fun target => [target.keyName]) hloads
    hkind hisLoaded (hplain.2 hkind).1 (hunchanged hkind) htarget hrows
  -- no child was read with an id, so that no stored id can be left out of the deletion
  have hnone : ∀ child ∈ run.after, child.fieldKey? run.target.keyName = none := by
    intro child' hchild'
    obtain ⟨child, hchild, hkey⟩ := run.fieldKey?_after hplain.1 hbelow run.target.keyName child'
      hchild'
    obtain ⟨_, -, fetched, hshows, hcast⟩ := exists_of_mem_right hattached hchild
    have hchildNone : child.get? run.target.keyName = none :=
      Schema.get?_castRow_of_none hcast (get?_of_not_asks hasks hshows)
    rw [hkey, Entity.fieldKey?, hchildNone]
    rfl
  have hids := run.storedIds_eq_nil hnone (run.deleted_eq_nil hreads)
  obtain ⟨storedRow, hstoredRow, hshows⟩ := exists_of_mem_right (hanswers rows hrows) hrow
  obtain ⟨answered, hanswered, hshows'⟩ :=
    exists_of_mem_left (hanswers run.stored run.answers) hstoredRow
  have hcolumn : run.target.keyName ∈ [run.target.keyName] := List.mem_singleton_self _
  rw [Row.id?, Option.bind_some, hshows.2 _ hcolumn, ← hshows'.2 _ hcolumn]
  exact id?_of_storedIds_eq_nil hids hanswered

end Tie

/-- A save that only reads inserts no pivot, so that every pivot leads to a row. -/
theorem PivotsRun.farKeys_of_reads {db : Database} {route : Tie} {far : Relation} {below : EmbedTree}
    {owner owner' : Entity} {log log' : Log}
    (run : PivotsRun db route far (db.save below) owner log owner' log')
    (hmodels : ∀ pivot ∈ owner.attached route.name, pivot.model = route.target)
    (hjoined : ∀ pivot ∈ owner.attached route.name,
      owner.Joined route.sourceKey pivot route.targetKey)
    (hfar : ∀ pivot ∈ owner.attached route.name,
      far.Everywhere (.clean db) (Entity.Clean db below) pivot)
    (hreads : Extends IsSelection log log') : ∀ pivot ∈ owner.attached route.name,
      (pivot.fieldKey? far.sourceKey).isSome = true := by
  have hattached : owner.attached route.name = run.before.entities :=
    Entity.attached_of_relation? (Entity.relation?_of_many run.many)
  rw [hattached] at hmodels hjoined hfar ⊢
  have hprepared := Edit.quiet_preparePivots (fun _ => Database.quiet_save) hfar
    (Entity.get?_of_requireKey run.requireKey).1 hjoined log
  rw [run.prepare] at hprepared
  have hsettles : List.Forall₂ (Entity.Settles db) run.before.entities run.prepared :=
    hprepared.2 run.results rfl
  obtain ⟨writes, deletion, hlog, hwrites, -⟩ := run.log_eq hmodels
  rw [hlog] at hreads
  have hsent := allowed_of_extends (run.extends_cascade (db.sends_save below)) hreads
  have hspec := pairRows_spec run.pivot.declaredKey? far.sourceKey run.prepared run.stored
  have hpairs : List.Forall₂ (fun pivot row? => (pivot, row?) ∈ run.prepared.zip run.taken)
      run.prepared run.taken := List.forall₂_iff_zip.mpr ⟨hspec.length_eq, fun hpair => hpair⟩
  intro pivot hpivot
  obtain ⟨pivot', hpivot', hsettle⟩ := exists_of_mem_left hsettles hpivot
  obtain ⟨row?, -, hpair⟩ := exists_of_mem_left hpairs hpivot'
  obtain ⟨sent, hwritten, hwrite⟩ := exists_of_mem_left hwrites hpair
  cases row? with
  | none =>
      -- the insert of such a pivot would be among what was sent
      cases hwrite with
      | @insert _ sql hsql =>
          have hmem : sql ∈ writes.flatten :=
            List.mem_flatten.mpr ⟨[sql], hwritten, List.mem_singleton_self sql⟩
          have hselect : IsSelection sql :=
            hsent sql (List.mem_append_left _ (List.mem_append_right _ hmem))
          exact absurd hselect (not_isSelection (by decide) (Insert.begins_render hsql))
  | some row =>
      have hshares := ((List.forall₂_iff_zip.mp hspec).2 hpair).1 row rfl
      obtain ⟨key, hkey, -⟩ := Entity.sharesFar_iff.mp hshares
      rw [← Entity.fieldKey?_of_settles hsettle, hkey]
      rfl

/-! ## Graphs -/

/-- The terms hold of all that a relation attaches to an entity, on its way and at its end. -/
def Relation.EverywhereBelow (terms : Terms) (below : Entity → Prop) : Relation → Entity → Prop
  | .tie t, entity => ∀ related ∈ entity.attached t.name, below related
  | .through _ _ route far _, entity => ∀ pivot ∈ entity.attached route.name,
      terms.own pivot ∧ far.Everywhere terms below pivot

namespace Entity

variable {db : Database} {entity later : Entity} {name : String} {below : EmbedTree}
  {log log' : Log}

theorem knowsIds_of_saveReads {t : Tie} (hdiff : db.registry.ReconcilesByDiff)
    (hloaded : entity.Loaded db)
    (hunchanged : entity.Everywhere db (.unchanged db) (.cons name below .nil))
    (hplain : entity.Everywhere db (.plain db) (.cons name below .nil))
    (hrelation : db.registry.relation entity.model name = .ok (.tie t)) (hkind : t.kind = .hasMany)
    (hisLoaded : entity.isLoaded t.name = true)
    (hkeyed : ∀ child ∈ entity.attached t.name, child.Everywhere db (.keyed db) below)
    (h : db.save (.cons name below .nil) entity log = ⟨.ok (), later, log'⟩)
    (hreads : Extends IsSelection log log') : t.KnowsIds db entity := by
  have hname : t.name = name := Registry.name_of_relation hrelation
  obtain ⟨-, -, hties, hattached⟩ := id hloaded
  obtain ⟨htie, hrelated⟩ := hunchanged.1 _ hrelation hisLoaded
  obtain ⟨hplainTie, hplainRelated⟩ := hplain.1 _ hrelation hisLoaded
  obtain ⟨sent, hrun, hreadsRun⟩ := Database.run_save_relation hrelation
    (by simp [Relation.isBelongsTo, hkind]) (isSettled_of_loaded hloaded hplain.2) h hreads
  have hsave := run_subject_bind hrun
  rw [if_pos (show entity.isLoaded (Relation.tie t).name = true from hisLoaded)] at hsave
  change t.save db (db.save below) entity sent = _ at hsave
  rw [Tie.save, hkind] at hsave
  rw [← hname] at hrelation
  refine Tie.knowsIds_of_reads (hties t hrelation) hkind hisLoaded htie hplainTie ?_ hsave hreadsRun
  intro child hchild
  exact clean_of_loaded hdiff (hattached t.name child hchild) (hrelated child hchild)
    (hplainRelated child hchild) (hkeyed child hchild)

theorem farKeys_of_saveReads {own correlate : String} {route : Tie} {far : Relation}
    {mode : PivotMode} {collection : Collection} (hdiff : db.registry.ReconcilesByDiff)
    (hloaded : entity.Loaded db)
    (hunchanged : entity.Everywhere db (.unchanged db) (.cons name below .nil))
    (hplain : entity.Everywhere db (.plain db) (.cons name below .nil))
    (hrelation : db.registry.relation entity.model name =
      .ok (.through own correlate route far mode)) (hisLoaded : entity.isLoaded own = true)
    (hcollection : entity.relation? route.name = some (.many collection))
    (hkeyed : ∀ pivot ∈ entity.attached route.name, far.Everywhere (.keyed db)
      (Entity.Everywhere db (.keyed db) below) pivot)
    (h : db.save (.cons name below .nil) entity log = ⟨.ok (), later, log'⟩)
    (hreads : Extends IsSelection log log') :
    ∀ pivot ∈ entity.attached route.name, (pivot.fieldKey? far.sourceKey).isSome = true := by
  obtain ⟨-, -, hties, hattached⟩ := id hloaded
  obtain ⟨-, hrelated⟩ := (hunchanged.1 _ hrelation hisLoaded).2 collection hcollection
  obtain ⟨hplainRoute, hplainRelated⟩ := (hplain.1 _ hrelation hisLoaded).2 collection hcollection
  obtain ⟨sent, hrun, hreadsRun⟩ := Database.run_save_relation hrelation rfl
    (isSettled_of_loaded hloaded hplain.2) h hreads
  have hsave := run_subject_bind hrun
  rw [if_pos (show entity.isLoaded (Relation.through own correlate route far mode).name = true
    from hisLoaded)] at hsave
  have hmode : mode = .diff := Registry.mode_of_relation hdiff hrelation
  subst hmode
  obtain ⟨hroute, hfarRelation⟩ := Registry.parts_of_relation hrelation
  have hmodels := (hties route hroute).models
  obtain ⟨run⟩ := PivotsRun.exists_of_run (isLoaded_of_relation? hcollection) hsave
  refine run.farKeys_of_reads hmodels hplainRoute.1 (fun pivot hpivot => ?_) hreadsRun
  rw [← hmodels pivot hpivot] at hfarRelation
  have hplainFar := Relation.everywhere_both (fun _ => everywhere_both)
    (hrelated pivot hpivot).2 (hplainRelated pivot hpivot).2
  exact Relation.everywhere_of_imply (imply_clean hdiff)
    (fun _ => everywhere_of_imply (imply_clean hdiff)) (hattached route.name pivot hpivot)
    hfarRelation (Relation.everywhere_both (fun _ => everywhere_both) hplainFar
      (hkeyed pivot hpivot))

/-- A save with the relations of one name that only reads finds them keyed. -/
theorem keyed_of_reads (hdiff : db.registry.ReconcilesByDiff) (hloaded : entity.Loaded db)
    (hunchanged : entity.Everywhere db (.unchanged db) (.cons name below .nil))
    (hplain : entity.Everywhere db (.plain db) (.cons name below .nil))
    (hbelow : ∀ relation, db.registry.relation entity.model name = .ok relation →
      relation.EverywhereBelow (.keyed db) (Entity.Everywhere db (.keyed db) below) entity)
    (h : db.save (.cons name below .nil) entity log = ⟨.ok (), later, log'⟩)
    (hreads : Extends IsSelection log log') :
    entity.Everywhere db (.keyed db) (.cons name below .nil) := by
  refine ⟨fun relation hrelation => ?_, trivial⟩
  have hkeyed := hbelow relation hrelation
  cases relation with
  | tie t =>
      exact fun hisLoaded => ⟨fun hkind => knowsIds_of_saveReads hdiff hloaded hunchanged hplain
        hrelation hkind hisLoaded hkeyed h hreads, hkeyed⟩
  | through own correlate route far mode =>
      exact fun hisLoaded => ⟨trivial, fun collection hcollection =>
        ⟨farKeys_of_saveReads hdiff hloaded hunchanged hplain hrelation hisLoaded hcollection
          (fun pivot hpivot => (hkeyed pivot hpivot).2) h hreads, hkeyed⟩⟩

end Entity

/-- A graph that is saved as a query gave it sends nothing but selections if it was read with the ids
of children and with the far keys of pivots.  With the relations of one name, and with nothing
missing below them, a save that succeeds sends nothing else only if it was. -/
theorem save_of_query_reads_iff {σ : Type} {db : Database} {q : Query} {select : Select}
    {subject subject' : σ} {log log' : Log} {entities : List Entity} {entity : Entity}
    (h : (q.run db select : Edit σ (List Entity)) subject log = ⟨.ok entities, subject', log'⟩)
    (hentity : entity ∈ entities) (hdiff : db.registry.ReconcilesByDiff)
    (hunchanged : entity.Everywhere db (.unchanged db) q.tree)
    (hplain : entity.Everywhere db (.plain db) q.tree) :
    (entity.Everywhere db (.keyed db) q.tree →
      ∀ start, Extends IsSelection start (db.save q.tree entity start).log) ∧
    ∀ name below, q.tree = .cons name below .nil →
      (∀ relation, db.registry.relation entity.model name = .ok relation →
        relation.EverywhereBelow (.keyed db) (Entity.Everywhere db (.keyed db) below) entity) →
      ∀ start later sent, db.save q.tree entity start = ⟨.ok (), later, sent⟩ →
        (Extends IsSelection start sent ↔ entity.Everywhere db (.keyed db) q.tree) := by
  have hloaded : entity.Loaded db := Database.loaded_of_run h entity hentity
  have hreads : entity.Everywhere db (.keyed db) q.tree →
      ∀ start, Extends IsSelection start (db.save q.tree entity start).log := by
    intro hkeyed start
    have hclean : entity.Clean db q.tree :=
      Entity.clean_of_loaded hdiff hloaded hunchanged hplain hkeyed
    exact (Database.quiet_save hclean start).1
  refine ⟨hreads, fun name below htree hbelow start later sent hsave => ?_⟩
  constructor
  · intro hsent
    rw [htree] at hunchanged hplain hsave ⊢
    exact Entity.keyed_of_reads hdiff hloaded hunchanged hplain hbelow hsave hsent
  · intro hkeyed
    have hsent := hreads hkeyed start
    rw [hsave] at hsent
    exact hsent

namespace Gallery

/-- The first gallery with its image, as it is loaded from the row of the image. -/
def loadedGallery : Entity :=
  (Entity.hydrated "Gallery" imageRow).setRelation "images"
    (.many ⟨"Image", [.hydrated "Image" imageRow]⟩)

theorem isDefined_imageRow (schema : Schema) : imageRow.IsDefined schema := by
  intro field value _ hvalue
  have hmem : (field, value) ∈ [("id", Value.integer 1), ("gallery_id", .integer 1)] :=
    Row.get?_eq_some_iff.mp hvalue
  simp only [List.mem_cons, Prod.mk.injEq, List.not_mem_nil, or_false] at hmem
  rcases hmem with ⟨-, rfl⟩ | ⟨-, rfl⟩ <;> rfl

theorem shows_imageRow (columns : List String) : imageRow.Shows columns imageRow :=
  ⟨fun _ => rfl, fun _ _ => rfl⟩

theorem everywhere_loadedGallery {terms : Terms} (hown : terms.own loadedGallery)
    (htie : terms.tie images loadedGallery)
    (himage : terms.own (.hydrated "Image" imageRow)) :
    loadedGallery.Everywhere (database [imageRow]) terms galleries.tree := by
  have himages : (database [imageRow]).registry.relation "Gallery" "images" = .ok (.tie images) := by
    rfl
  refine ⟨fun relation hrelation => ?_, hown⟩
  cases himages.symm.trans hrelation
  intro _
  refine ⟨htie, fun related hrelated => ?_⟩
  rw [List.mem_singleton.mp hrelated]
  exact himage

theorem unchanged_loadedGallery :
    loadedGallery.Everywhere (database [imageRow]) (.unchanged (database [imageRow]))
      galleries.tree := by
  refine everywhere_loadedGallery trivial (fun _ => ?_) trivial
  rintro target key rows htarget hkey ⟨keys, log, sql, -, -, hrows⟩
  cases htarget
  cases hkey
  cases hrows
  refine ⟨[imageRow], ?_, ?_⟩
  · exact .cons ⟨shows_imageRow _, fun hfields => absurd rfl hfields⟩ .nil
  · rintro answered ⟨_, _, _, _, -, -, -, -, hanswered⟩
    cases hanswered
    exact .cons (shows_imageRow _) .nil

theorem plain_loadedGallery :
    loadedGallery.Everywhere (database [imageRow]) (.plain (database [imageRow]))
      galleries.tree := by
  refine everywhere_loadedGallery (fun schema _ => isDefined_imageRow schema) ⟨?_, fun _ => ?_⟩
    fun schema _ => isDefined_imageRow schema
  · intro related hrelated
    rw [List.mem_singleton.mp hrelated]
    exact ⟨.integer 1, .integer 1, rfl, rfl, rfl⟩
  · refine ⟨⟨.integer 1, rfl, fun _ => rfl⟩, ?_⟩
    rintro target rows htarget ⟨_, _, _, _, -, -, -, -, hrows⟩ row hrow id read hid hread
    cases htarget
    cases hrows
    rw [List.mem_singleton.mp hrow] at hid
    cases hid
    cases hread
    rfl

theorem keyed_loadedGallery :
    loadedGallery.Everywhere (database [imageRow]) (.keyed (database [imageRow]))
      galleries.tree :=
  everywhere_loadedGallery trivial (fun _ _ _ => .inl (.inl rfl)) trivial

theorem reconcilesByDiff_registry : registry.ReconcilesByDiff := by
  intro schema hschema decl hdecl options hoptions
  simp only [registry, List.mem_cons, List.not_mem_nil, or_false] at hschema
  rcases hschema with rfl | rfl | rfl | rfl | rfl
  all_goals
    simp only [gallery, image, imageTag, label, tag, model, hasMany, belongsTo, route,
      List.mem_cons, List.not_mem_nil, or_false] at hdecl
  all_goals
    rcases hdecl with rfl | rfl | rfl | rfl <;> cases hoptions
  all_goals rfl

end Gallery

open Gallery in
/-- A gallery is loaded with its image and saved with nothing but a selection. -/
theorem save_galleries_reads :
    (galleries.run (database [imageRow]) galleries.select : Edit Unit (List Entity)) () [] =
      ⟨.ok [loadedGallery], (), ["SELECT * FROM \"gallery\"",
        "SELECT * FROM \"image\" WHERE \"gallery_id\" IN (1)"]⟩ ∧
    ∀ start, Extends IsSelection start
      ((database [imageRow]).save galleries.tree loadedGallery start).log := by
  have h : (galleries.run (database [imageRow]) galleries.select : Edit Unit (List Entity)) () [] =
      ⟨.ok [loadedGallery], (), ["SELECT * FROM \"gallery\"",
        "SELECT * FROM \"image\" WHERE \"gallery_id\" IN (1)"]⟩ := by rfl
  exact ⟨h, (save_of_query_reads_iff h (List.mem_singleton_self _) reconcilesByDiff_registry
    unchanged_loadedGallery plain_loadedGallery).1 keyed_loadedGallery⟩

open Gallery in
/-- A gallery that was loaded without the ids of its images loses them when it is saved. -/
theorem save_deletes_titled_images :
    ((titledGalleries.run titled titledGalleries.select >>= fun loaded =>
        Edit.applyTo loaded (titled.saveAll titledGalleries.tree) :
          Edit Unit (List Entity)) () []).log =
      ["SELECT * FROM \"gallery\"",
        "SELECT \"title\", \"gallery_id\" FROM \"image\" WHERE \"gallery_id\" IN (1)",
        "SELECT \"id\" FROM \"image\" WHERE \"gallery_id\" = 1",
        "DELETE FROM \"image\" WHERE \"id\" IN (7)"] := by
  decide +kernel

end RecordMapper
