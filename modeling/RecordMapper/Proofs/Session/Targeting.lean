import RecordMapper.Proofs.Session.Cascade
import RecordMapper.Proofs.Session.Gallery
import RecordMapper.Proofs.Session.Reloading
import RecordMapper.Proofs.Session.StaleCondition
import RecordMapper.Proofs.Statement.Clause

/-!
# Writes of some rows only

An update or a deletion without a clause applies to a whole table.  `TargetedWrite` lists the
conditions that the writes of a save carry: each update and each deletion that is sent while entities
are saved or deleted has one of them as its clause.
-/

namespace RecordMapper

namespace Database

/-- The key that an entity is stored under: as it was stored, or else as it is in memory. -/
structure StoredUnder (db : Database) (entity : Entity) (schema : Schema) (id : Value) : Prop where
  declared : db.registry.schema entity.model = .ok schema
  key : (entity.stored? schema.keyName <|> entity.get? schema.keyName) = some id
  notNull : id.isNull = false

/-- An update or a deletion, sent by the save of an entity with a tree, of the rows that are meant and
of no others. -/
inductive TargetedWrite (db : Database) (tree : EmbedTree) (entity : Entity) (sql : String) : Prop
  /-- The update of a written entity is for the row with its key. -/
  | update {written : Entity} {schema : Schema} {id : Value}
      (persists : db.Persists tree entity written)
      (sends : ∀ log, (db.persist written log).log = log ++ [sql])
      (stored : db.StoredUnder written schema id)
      (text : db.dialect.Narrows (.eq (.ofPath schema.keyName) (.value id))
        (schema.updateHead db.dialect (schema.changedValues written)) sql)
  /-- Some of the stored children of an owner are deleted by their keys. -/
  | missing {tie : Tie} {owner : Entity} {target : Schema} {ids : List Value}
      (owns : db.OwnsChildren tree entity tie owner target)
      (found : db.FindsIds target tie owner ids) (hids : ids ≠ [])
      (text : db.dialect.Narrows (.inList (.ofPath target.keyName) ids)
        (target.deleteHead db.dialect) sql)
  /-- The pivots of an owner are deleted by its key, together with what else they must meet. -/
  | owned {route : Tie} {far : Relation} {below : EmbedTree} {owner : Entity} {pivot : Schema}
      {key : Value} {owned : Condition} {more : List Condition}
      (owns : db.OwnsPivots tree entity route far .flush below owner pivot)
      (ownerKey : owner.requireKey route.sourceKey route.source route.name = .ok key)
      (matching : (Relation.tie route).matchCondition owner = .ok owned)
      (conjuncts : owned.conjuncts = .eq (.ofPath route.targetKey) (.value key) :: more)
      (text : db.dialect.Narrows owned (pivot.deleteHead db.dialect) sql)
  /-- Some of the stored pivots of an owner are deleted by their keys. -/
  | staleIds {route : Tie} {far : Relation} {below : EmbedTree} {owner : Entity} {pivot : Schema}
      {rows : List Row} {column : String} {ids : List Value}
      (owns : db.OwnsPivots tree entity route far .diff below owner pivot)
      (found : db.FindsRows pivot route owner rows) (declared : pivot.declaredKey? = some column)
      (values : idsOf? column rows = some ids) (hids : ids ≠ [])
      (text : db.dialect.Narrows (.inList (.ofPath column) ids) (pivot.deleteHead db.dialect) sql)
  /-- Some of the stored pivots of an owner are deleted by all their values, and each of them has
  some. -/
  | staleRows {route : Tie} {far : Relation} {below : EmbedTree} {owner : Entity} {pivot : Schema}
      {rows : List Row} (owns : db.OwnsPivots tree entity route far .diff below owner pivot)
      (found : db.FindsRows pivot route owner rows) (hrows : rows ≠ [])
      (columns : ∀ row ∈ rows, row.pairs ≠ [])
      (text : db.dialect.Narrows (.or (rows.map sameRow)) (pivot.deleteHead db.dialect) sql)

/-- The statement is for some rows only if it updates or deletes any. -/
def Targeted (db : Database) (tree : EmbedTree) (entity : Entity) (sql : String) : Prop :=
  StatementKind.update.begins sql = true ∨ StatementKind.delete.begins sql = true →
    db.TargetedWrite tree entity sql

variable {db : Database} {tree : EmbedTree} {entity : Entity} {sql : String}

theorem targeted_of_other {kind : StatementKind} (h : kind.begins sql = true)
    (hupdate : kind ≠ .update) (hdelete : kind ≠ .delete) : db.Targeted tree entity sql := by
  rintro (hbegins | hbegins)
  · exact absurd (StatementKind.begins_unique h hbegins) hupdate
  · exact absurd (StatementKind.begins_unique h hbegins) hdelete

end Database

/-! ## Conditions on stale rows -/

theorem speaks_sameValue (d : Dialect) (column : String) (value : Value) :
    (sameValue column value).Speaks d := by
  rw [sameValue]
  split
  · exact Condition.speaks_isNull _
  · exact Condition.speaks_eq _ _

theorem speaks_sameRow (d : Dialect) {row : Row} (h : row.pairs ≠ []) : (sameRow row).Speaks d := by
  obtain ⟨pair, rest, hpairs⟩ := List.exists_cons_of_ne_nil h
  refine Condition.speaks_and ?_ (speaks_sameValue d pair.1 pair.2)
  rw [hpairs]
  exact List.mem_cons_self

theorem pairs_castRow_ne_nil {schema : Schema} {row cast : Row} (h : row.pairs ≠ [])
    (hcast : schema.castRow row = .ok cast) : cast.pairs ≠ [] := by
  obtain ⟨pair, rest, hpairs⟩ := List.exists_cons_of_ne_nil h
  have hvalue : row.get? pair.1 = some pair.2 :=
    Row.get?_eq_some_iff.mpr (hpairs ▸ List.mem_cons_self)
  obtain ⟨read, -, hread⟩ := Schema.get?_castRow_of_some hcast hvalue
  exact List.ne_nil_of_mem (Row.get?_eq_some_iff.mp hread)

namespace Database

variable {db : Database} {tree below : EmbedTree} {entity owner : Entity} {route : Tie} {far : Relation}
  {pivot : Schema}

theorem FindsRows.mono {rows others : List Row} (h : db.FindsRows pivot route owner rows)
    (hothers : others ⊆ rows) : db.FindsRows pivot route owner others := by
  obtain ⟨select, hselect, hfound⟩ := h
  exact ⟨select, hselect, fun row hrow => hfound row (hothers hrow)⟩

/-- An answered row has columns, and so has what is read from it. -/
theorem FindsRows.pairs_ne_nil (hanswers : ∀ row, db.Answers row → row.pairs ≠ []) {rows : List Row}
    (h : db.FindsRows pivot route owner rows) : ∀ row ∈ rows, row.pairs ≠ [] := by
  obtain ⟨select, -, hfound⟩ := h
  intro row hrow
  obtain ⟨answered, hanswered, hcast⟩ := hfound row hrow
  exact pairs_castRow_ne_nil (hanswers answered (answers_of_answersTo hanswered)) hcast

theorem targetedWrite_of_staleCondition {stale : List Row} {sql : String}
    (howns : db.OwnsPivots tree entity route far .diff below owner pivot)
    (hfound : db.FindsRows pivot route owner stale) (hstale : stale ≠ [])
    (hcolumns : ∀ row ∈ stale, row.pairs ≠ [])
    (h : (pivot.deleteOf (staleCondition pivot.declaredKey? stale)).render db.dialect = .ok sql) :
    db.TargetedWrite tree entity sql := by
  rcases staleCondition_cases pivot.declaredKey? stale with
    ⟨column, ids, hkey, hvalues, hcondition⟩ | ⟨others, hothers, hsome, hcondition⟩
  · obtain ⟨row, hrow⟩ := List.exists_mem_of_ne_nil stale hstale
    obtain ⟨id, hid, -⟩ := exists_id_of_idsOf? hvalues hrow
    rw [hcondition] at h
    exact .staleIds howns hfound hkey hvalues (List.ne_nil_of_mem hid)
      (Schema.narrows_deleteOf (Condition.speaks_inList _ ids) h)
  · obtain ⟨other, hother⟩ := List.exists_mem_of_ne_nil others (hsome hstale)
    have hspeaks : (sameRow other).Speaks db.dialect :=
      speaks_sameRow _ (hcolumns other (hothers hother))
    rw [hcondition] at h
    exact .staleRows howns (hfound.mono hothers) (hsome hstale)
      (fun row hrow => hcolumns row (hothers hrow))
      (Schema.narrows_deleteOf (Condition.speaks_or (List.mem_map_of_mem hother) hspeaks) h)

theorem targetedWrite_of_matchCondition {owned : Condition} {sql : String}
    (howns : db.OwnsPivots tree entity route far .flush below owner pivot)
    (howned : (Relation.tie route).matchCondition owner = .ok owned)
    (h : (pivot.deleteOf owned).render db.dialect = .ok sql) : db.TargetedWrite tree entity sql := by
  have hnarrows := Schema.narrows_deleteOf (Relation.speaks_matchCondition howned) h
  obtain ⟨key, hkey, rfl⟩ := Relation.matchCondition_eq_ok howned
  have hflat : ((Relation.tie route).hasKey key).conjuncts = [(Relation.tie route).hasKey key] := rfl
  obtain ⟨more, hmore⟩ := Condition.conjuncts_both rfl hflat
  exact .owned howns hkey howned hmore hnarrows

theorem storedUnder_of_storedKey {entity : Entity} {schema : Schema} {id : Value}
    (hschema : db.registry.schema entity.model = .ok schema)
    (h : entity.storedKey schema.keyName schema.model = .ok id) :
    db.StoredUnder entity schema id := by
  rw [Entity.storedKey] at h
  split at h
  next value hvalue =>
      split at h
      next => cases h
      next hnull =>
          cases h
          exact ⟨hschema, hvalue, by simpa using hnull⟩
  next => cases h

theorem log_persist_of_update {entity : Entity} {schema : Schema} {id : Value} {sql : String}
    (hschema : db.registry.schema entity.model = .ok schema) (hstored : entity.isStored = true)
    (hchanges : (schema.changedValues entity).isEmpty = false)
    (hid : entity.storedKey schema.keyName schema.model = .ok id)
    (h : (schema.updateOf (schema.changedValues entity) id).render db.dialect = .ok sql)
    (log : Log) : (db.persist entity log).log = log ++ [sql] := by
  have hpersist : db.persist entity log = db.update schema entity entity log := by
    unfold persist
    rw [Edit.subject_bind_apply, hschema, Edit.lift_ok_bind, if_pos hstored]
  have hupdate : db.update schema entity = db.send sql >>= fun _ => Edit.modify Entity.markStored := by
    simp only [Database.update]
    rw [hchanges, if_neg (by simp), hid, Edit.lift_ok_bind, h]
    rfl
  rw [hpersist, hupdate, Edit.bind_apply, send_apply]
  cases db.connection.answer log sql <;> rfl

theorem allowsSaves_targeted (hanswers : ∀ row, db.Answers row → row.pairs ≠ []) :
    db.AllowsSaves tree entity (db.Targeted tree entity) where
  insert _ _ _ h := targeted_of_other (Insert.begins_render h) nofun nofun
  update hpersists hschema hstored hchanges hid h _ :=
    .update hpersists (log_persist_of_update hschema hstored hchanges hid h)
      (storedUnder_of_storedKey hschema hid) (Schema.narrows_updateOf h)
  selectChildren := fun _ ⟨_, _, h⟩ => targeted_of_other (Select.begins_render h) nofun nofun
  deleteMissing howns hfound hids h _ :=
    .missing howns hfound (by simpa using hids) (Schema.narrows_deleteOf (Condition.speaks_inList _ _) h)
  selectPivots := fun _ ⟨_, _, h⟩ => targeted_of_other (Select.begins_render h) nofun nofun
  deleteStale howns hfound hstale h _ :=
    targetedWrite_of_staleCondition howns hfound (by simpa using hstale) (hfound.pairs_ne_nil hanswers) h
  deleteOwned howns howned h _ := targetedWrite_of_matchCondition howns howned h

/-- The statement deletes the rows with the key of an entity. -/
def DeletesEntity (db : Database) (entity : Entity) (sql : String) : Prop :=
  ∃ schema id, db.StoredUnder entity schema id ∧
    db.dialect.Narrows (.eq (.ofPath schema.keyName) (.value id)) (schema.deleteHead db.dialect) sql

theorem sendsFrom_delete {allowed : String → Prop}
    (h : ∀ schema id sql, db.StoredUnder entity schema id →
      (schema.deleteOf (.eq (.ofPath schema.keyName) (.value id))).render db.dialect = .ok sql →
      allowed sql) (log : Log) : db.delete.SendsFrom allowed entity log := by
  refine Edit.sendsFrom_subject_bind (Edit.sendsFrom_lift_bind fun schema hschema =>
    Edit.sendsFrom_lift_bind fun id hid => ?_)
  refine sendsFrom_execute_bind (fun sql hsql => ?_) fun _ _ _ _ => extends_refl _
  exact h schema id sql (storedUnder_of_storedKey hschema hid) hsql

/-- If every row that the connection gives has a column, no update and no deletion that is sent while
entities are saved or deleted lacks its clause, whatever the relations and the answers are.  The clause
is for the key of an entity that is written, for the key of an owner whose pivots are renewed, or for
rows that were found as those of an owner. -/
theorem writes_are_targeted {db : Database} (hanswers : ∀ row, db.Answers row → row.pairs ≠ []) :
    (∀ tree entity log, (db.save tree).SendsFrom (db.Targeted tree entity) entity log) ∧
    (∀ tree entities log, (db.saveAll tree).SendsFrom
      (fun sql => ∃ entity ∈ entities, db.Targeted tree entity sql) entities log) ∧
    ∀ entity log, db.delete.SendsFrom (db.DeletesEntity entity) entity log := by
  have hsave : ∀ tree entity log, (db.save tree).SendsFrom (db.Targeted tree entity) entity log :=
    fun tree entity => sendsFrom_save_of_allows (allowsSaves_targeted hanswers)
  refine ⟨hsave, fun tree => sendsFrom_saveAll (hsave tree), fun entity => ?_⟩
  exact sendsFrom_delete fun schema id sql hstored hsql =>
    ⟨schema, id, hstored, Schema.narrows_deleteOf (Condition.speaks_eq _ _) hsql⟩

open Gallery in
/-- Of the statements that save the tags of an image, the one deletion is for the row of a tag that
the image no longer has. -/
theorem writes_are_targeted_tagged :
    (tagged.save (.cons "tags" .nil .nil) (taggedImage.setRelation "tags" .through) []).log =
        ["SELECT * FROM \"images_tags\" WHERE \"image_id\" = 1",
          "INSERT INTO \"images_tags\" (\"tag_id\", \"image_id\") VALUES (5, 1)",
          "DELETE FROM \"images_tags\" WHERE \"id\" IN (3)"] ∧
      tagged.TargetedWrite (.cons "tags" .nil .nil) (taggedImage.setRelation "tags" .through)
        "DELETE FROM \"images_tags\" WHERE \"id\" IN (3)" := by
  have hanswers : ∀ row, tagged.Answers row → row.pairs ≠ [] := by
    rintro row ⟨log, sql, rows, hrows, hrow⟩
    cases hrows
    rcases List.mem_cons.mp hrow with rfl | hrest
    · exact List.cons_ne_nil _ _
    · rw [List.mem_singleton.mp hrest]
      exact List.cons_ne_nil _ _
  have hlog : (tagged.save (.cons "tags" .nil .nil) (taggedImage.setRelation "tags" .through) []).log =
      ["SELECT * FROM \"images_tags\" WHERE \"image_id\" = 1",
        "INSERT INTO \"images_tags\" (\"tag_id\", \"image_id\") VALUES (5, 1)",
        "DELETE FROM \"images_tags\" WHERE \"id\" IN (3)"] := by rfl
  obtain ⟨added, hadded, htargeted⟩ :=
    (writes_are_targeted hanswers).1 (.cons "tags" .nil .nil)
      (taggedImage.setRelation "tags" .through) []
  rw [hlog, List.nil_append] at hadded
  refine ⟨hlog, htargeted _ ?_ (.inr (by decide))⟩
  rw [← hadded]
  exact List.mem_of_getLast? rfl

end Database

end RecordMapper
