import RecordMapper.Proofs.Session.Fetching
import RecordMapper.Proofs.Session.Gallery
import RecordMapper.Proofs.Session.Targeting
import RecordMapper.Proofs.Statement.Spelling

/-!
# Columns of stored entities

Every statement that creates the table of a model, or is sent while entities are saved, deleted or
embedded, is given here by its whole text, with the schemas, the owners and the rows that it is for.
`columns_are_spelled` says so, and for which names a column is read under the text under which it is
written.
-/

namespace RecordMapper

namespace Spelling

variable (names : Spelling) (d : Dialect)

def sameText (pair : String × Value) : String :=
  if pair.2.isNull then names.read pair.1 ++ " IS NULL" else names.equalText d pair.1 pair.2

def rowText (row : Row) : String :=
  let text := " AND ".intercalate (row.pairs.map (names.sameText d))
  if 1 < row.pairs.length then parenthesize text else text

end Spelling

namespace Database

/-! ## Statements of a session -/

def SpelledCreation (db : Database) (names : Spelling) (model sql : String) : Prop :=
  ∃ schema, db.registry.schema model = .ok schema ∧
    names.SpelledTable db.connection.platform schema sql

/-- The clause for the rows that are related to an owner and meet the constraints of the relation. -/
def SpelledOwner (db : Database) (names : Spelling) (tie : Tie) (owner : Entity) (clause : String) :
    Prop :=
  ∃ key more, owner.requireKey tie.sourceKey tie.source tie.name = .ok key ∧
    (Condition.and tie.constraints.conjuncts).render db.dialect = .ok more ∧
    clause = names.equalText db.dialect tie.targetKey key ++ Spelling.moreText more

/-- The clause for the rows that are related to some owners and meet the constraints of the relation. -/
def SpelledOwners (db : Database) (names : Spelling) (tie : Tie) (owners : List Entity)
    (clause : String) : Prop :=
  ∃ more, (Condition.and tie.constraints.conjuncts).render db.dialect = .ok more ∧
    clause = names.memberText db.dialect tie.targetKey (distinctValues owners tie.sourceKey) ++
      Spelling.moreText more

/-- The statements of the save of an entity with a tree. -/
inductive SpelledSave (db : Database) (names : Spelling) (tree : EmbedTree) (entity : Entity) :
    String → Prop
  | insert {written : Entity} {schema : Schema} (persists : db.Persists tree entity written)
      (declared : db.registry.schema written.model = .ok schema) (new : written.isStored = false) :
      SpelledSave db names tree entity
        (names.insertText db.dialect schema (schema.insertedValues written))
  | update {written : Entity} {schema : Schema} {id : Value} (persists : db.Persists tree entity written)
      (stored : written.isStored = true) (key : db.StoredUnder written schema id)
      (changed : (schema.changedValues written).isEmpty = false) :
      SpelledSave db names tree entity
        (names.updateText db.dialect schema (schema.changedValues written) id)
  | selectChildren {tie : Tie} {owner : Entity} {target : Schema} {clause : String}
      (owns : db.OwnsChildren tree entity tie owner target)
      (related : db.SpelledOwner names tie owner clause) :
      SpelledSave db names tree entity
        (names.selectText db.dialect target [target.keyName] clause)
  | deleteMissing {tie : Tie} {owner : Entity} {target : Schema} {ids : List Value}
      (owns : db.OwnsChildren tree entity tie owner target)
      (found : db.FindsIds target tie owner ids) :
      SpelledSave db names tree entity
        (Spelling.deleteText db.dialect target (names.memberText db.dialect target.keyName ids))
  | selectPivots {route : Tie} {far : Relation} {below : EmbedTree} {owner : Entity} {pivot : Schema}
      {clause : String} (owns : db.OwnsPivots tree entity route far .diff below owner pivot)
      (related : db.SpelledOwner names route owner clause) :
      SpelledSave db names tree entity (names.selectText db.dialect pivot [] clause)
  | deleteOwned {route : Tie} {far : Relation} {below : EmbedTree} {owner : Entity} {pivot : Schema}
      {clause : String} (owns : db.OwnsPivots tree entity route far .flush below owner pivot)
      (related : db.SpelledOwner names route owner clause) :
      SpelledSave db names tree entity (Spelling.deleteText db.dialect pivot clause)
  /-- Pivots with ids are deleted by these. -/
  | deleteIds {route : Tie} {far : Relation} {below : EmbedTree} {owner : Entity} {pivot : Schema}
      {rows : List Row} {ids : List Value}
      (owns : db.OwnsPivots tree entity route far .diff below owner pivot)
      (found : db.FindsRows pivot route owner rows) (values : idsOf? pivot.keyName rows = some ids) :
      SpelledSave db names tree entity
        (Spelling.deleteText db.dialect pivot (names.memberText db.dialect pivot.keyName ids))
  /-- Other pivots are deleted by all their values. -/
  | deleteRows {route : Tie} {far : Relation} {below : EmbedTree} {owner : Entity} {pivot : Schema}
      {rows : List Row} (owns : db.OwnsPivots tree entity route far .diff below owner pivot)
      (found : db.FindsRows pivot route owner rows) :
      SpelledSave db names tree entity
        (Spelling.deleteText db.dialect pivot (joinTexts .or (rows.map (names.rowText db.dialect))))

def SpelledDeletion (db : Database) (names : Spelling) (entity : Entity) (sql : String) : Prop :=
  ∃ schema id, db.StoredUnder entity schema id ∧
    sql = Spelling.deleteText db.dialect schema (names.equalText db.dialect schema.keyName id)

/-- The statements of the embedding of a tree on entities of a model. -/
inductive SpelledFetch (db : Database) (names : Spelling) (model : String) (tree : EmbedTree)
    (entities : List Entity) : String → Prop
  | fetch {relation : Relation} {below : EmbedTree} {owners : List Entity} {target : Schema}
      {clause : String} (visited : db.Visits model tree entities relation below owners)
      (declared : db.registry.schema relation.firstTie.target = .ok target)
      (related : db.SpelledOwners names relation.firstTie owners clause) :
      SpelledFetch db names model tree entities
        (names.selectText db.dialect target relation.firstTie.fetchedFields clause)

end Database

/-! ## Conditions on stale rows -/

variable {d : Dialect} {keyword : Keyword}

theorem body_sameValue (d : Dialect) (column : String) (value : Value) :
    (sameValue column value).body d = .ok (d.spelling.sameText d (column, value)) := by
  rw [sameValue, Spelling.sameText]
  split
  · change Except.ok (d.columnRef column ++ " " ++ "IS" ++ " " ++ "NULL") = _
    simp only [Dialect.spelling, String.append_assoc]
    rfl
  · exact body_eq d column value

theorem joinTexts_of_ne {texts : List String} (h : ∀ text ∈ texts, text ≠ "") :
    joinTexts keyword texts = (" " ++ keyword.text ++ " ").intercalate texts := by
  rw [joinTexts, List.filter_eq_self.mpr]
  intro text htext
  simpa using h text htext

theorem sameText_ne (names : Spelling) (d : Dialect) (pair : String × Value) :
    names.sameText d pair ≠ "" := by
  rw [Spelling.sameText]
  split <;> simp [Spelling.equalText]

theorem asOperand_sameValue (d : Dialect) (pair : String × Value) :
    Operand.asOperand ⟨sameValue pair.1 pair.2, (sameValue pair.1 pair.2).body d⟩ =
      .ok (d.spelling.sameText d pair) := by
  have hsingle : (sameValue pair.1 pair.2).isSubquery = false ∧
      (sameValue pair.1 pair.2).joinsSeveral = false := by
    rw [sameValue]
    split <;> exact ⟨rfl, rfl⟩
  rw [Operand.asOperand, body_sameValue, hsingle.1, hsingle.2]
  rfl

theorem operandTexts_map {α : Type} {items : List α} {tree : α → Condition} {text : α → String}
    (h : ∀ a ∈ items, Operand.asOperand ⟨tree a, (tree a).body d⟩ = .ok (text a)) :
    operandTexts (operandBodies d (items.map tree)) = .ok (items.map text) := by
  rw [operandBodies_eq_map, List.map_map, operandTexts, attempt_mapM_eq_ok,
    List.forall₂_map_left_iff, List.forall₂_map_right_iff, List.forall₂_same]
  exact h

theorem asOperand_sameRow (d : Dialect) (row : Row) :
    Operand.asOperand ⟨sameRow row, (sameRow row).body d⟩ = .ok (d.spelling.rowText d row) := by
  have htexts : operandTexts (operandBodies d (row.pairs.map fun pair => sameValue pair.1 pair.2)) =
      .ok (row.pairs.map (d.spelling.sameText d)) :=
    operandTexts_map fun pair _ => asOperand_sameValue d pair
  have hbody : (sameRow row).body d =
      .ok (" AND ".intercalate (row.pairs.map (d.spelling.sameText d))) := by
    change operandTexts _ >>= _ = _
    refine attempt_bind_eq_ok.mpr ⟨_, htexts, ?_⟩
    rw [joinTexts_of_ne]
    · rfl
    · intro text htext
      obtain ⟨pair, -, rfl⟩ := List.mem_map.mp htext
      exact sameText_ne _ d pair
  have hseveral : (sameRow row).joinsSeveral = decide (1 < row.pairs.length) := by
    have hkept : (row.pairs.map fun pair => sameValue pair.1 pair.2).filter (fun o => !o.isEmpty) =
        row.pairs.map fun pair => sameValue pair.1 pair.2 := by
      refine List.filter_eq_self.mpr fun operand hoperand => ?_
      obtain ⟨pair, -, rfl⟩ := List.mem_map.mp hoperand
      rw [(speaks_sameValue d pair.1 pair.2).content]
      rfl
    change (true && decide (1 < (List.filter _ _).length)) = _
    rw [hkept, List.length_map, Bool.true_and]
  have hsubquery : (sameRow row).isSubquery = false := rfl
  rw [Operand.asOperand, hbody, hseveral, hsubquery, Spelling.rowText]
  simp only [Bool.false_or, decide_eq_true_eq]
  rfl

theorem render_sameRows (d : Dialect) (rows : List Row) :
    (Condition.or (rows.map sameRow)).render d =
      .ok (joinTexts .or (rows.map (d.spelling.rowText d))) := by
  rw [Condition.render_eq_body rfl]
  exact attempt_bind_eq_ok.mpr ⟨_, operandTexts_map fun row _ => asOperand_sameRow d row, rfl⟩

theorem Schema.eq_keyName_of_declaredKey? {schema : Schema} {column : String}
    (h : schema.declaredKey? = some column) : column = schema.keyName := by
  rw [Schema.declaredKey?] at h
  split at h <;> cases h
  rfl

namespace Database

open Spelling

variable {db : Database} {tie : Tie} {owner : Entity} {condition : Condition} {sql : String}

/-! ## Conditions on owners -/

theorem spelledOwner_of_matchCondition (h : (Relation.tie tie).matchCondition owner = .ok condition)
    {clause : String} (hclause : condition.render db.dialect = .ok clause) :
    db.SpelledOwner db.dialect.spelling tie owner clause := by
  obtain ⟨key, hkey, rfl⟩ := Relation.matchCondition_eq_ok h
  obtain ⟨keyText, more, hkeyText, hmore, rfl⟩ :=
    Condition.render_both_eq_ok (Condition.isSingle_eq db.dialect _ key) hclause
  cases (render_eqValue db.dialect _ key).symm.trans hkeyText
  exact ⟨key, more, hkey, hmore, (append_moreText _ more).symm⟩

theorem spelledOwners_of_batchCondition {owners : List Entity} {clause : String}
    (hclause : ((Relation.tie tie).batchCondition (distinctValues owners tie.sourceKey)).render
      db.dialect = .ok clause) : db.SpelledOwners db.dialect.spelling tie owners clause := by
  obtain ⟨keyText, more, hkeyText, hmore, rfl⟩ :=
    Condition.render_both_eq_ok (Condition.isSingle_inList db.dialect _ _) hclause
  cases (render_inList db.dialect _ _).symm.trans hkeyText
  exact ⟨more, hmore, (append_moreText _ more).symm⟩

theorem exists_spelled_of_selectsOwned {schema : Schema} (columns : List String)
    (h : db.SelectsOwned schema tie owner (columns.map Column.ofPath) sql) :
    ∃ clause, db.SpelledOwner db.dialect.spelling tie owner clause ∧
      sql = db.dialect.spelling.selectText db.dialect schema columns clause := by
  obtain ⟨owned, howned, hsql⟩ := h
  have hspeaks := Relation.speaks_matchCondition howned (d := db.dialect)
  obtain ⟨head, -, clause, hclause, -, -⟩ := Schema.narrows_select hspeaks hsql
  exact ⟨clause, spelledOwner_of_matchCondition howned hclause,
    eq_selectText columns hspeaks hclause hsql⟩

/-! ## Sessions -/

variable {tree : EmbedTree} {entity : Entity}

theorem spelledSave_of_staleCondition {route : Tie} {far : Relation} {below : EmbedTree}
    {pivot : Schema} {stale : List Row}
    (howns : db.OwnsPivots tree entity route far .diff below owner pivot)
    (hfound : db.FindsRows pivot route owner stale)
    (h : (pivot.deleteOf (staleCondition pivot.declaredKey? stale)).render db.dialect = .ok sql) :
    db.SpelledSave db.dialect.spelling tree entity sql := by
  rcases staleCondition_cases pivot.declaredKey? stale with
    ⟨column, ids, hkey, hvalues, hcondition⟩ | ⟨others, hothers, -, hcondition⟩
  · obtain rfl : column = pivot.keyName := Schema.eq_keyName_of_declaredKey? hkey
    rw [hcondition] at h
    rw [eq_deleteText (render_inList db.dialect _ ids) h]
    exact .deleteIds howns hfound hvalues
  · rw [hcondition] at h
    rw [eq_deleteText (render_sameRows db.dialect _) h]
    exact .deleteRows howns (hfound.mono hothers)

theorem allowsSaves_spelled (db : Database) (tree : EmbedTree) (entity : Entity) :
    db.AllowsSaves tree entity (db.SpelledSave db.dialect.spelling tree entity) where
  insert hpersists hschema hnew h := by
    rw [eq_insertText h]
    exact .insert hpersists hschema hnew
  update hpersists hschema hstored hchanges hid h := by
    rw [eq_updateText h]
    exact .update hpersists hstored (storedUnder_of_storedKey hschema hid) hchanges
  selectChildren howns h := by
    obtain ⟨clause, hclause, rfl⟩ := exists_spelled_of_selectsOwned [_] h
    exact .selectChildren howns hclause
  deleteMissing howns hfound _ h := by
    rw [eq_deleteText (render_inList _ _ _) h]
    exact .deleteMissing howns hfound
  selectPivots howns h := by
    obtain ⟨clause, hclause, rfl⟩ := exists_spelled_of_selectsOwned [] h
    exact .selectPivots howns hclause
  deleteStale howns hfound _ h := spelledSave_of_staleCondition howns hfound h
  deleteOwned howns howned h := by
    obtain ⟨clause, hclause, -, -⟩ :=
      Schema.narrows_deleteOf (Relation.speaks_matchCondition howned) h
    rw [eq_deleteText hclause h]
    exact .deleteOwned howns (spelledOwner_of_matchCondition howned hclause)

theorem allowsFetches_spelled (db : Database) (model : String) (tree : EmbedTree)
    (entities : List Entity) :
    db.AllowsFetches model tree entities
      (db.SpelledFetch db.dialect.spelling model tree entities) := by
  intro relation below owners target sql hvisited htarget h
  have hspeaks := Relation.speaks_batchCondition (.tie relation.firstTie)
    (distinctValues owners relation.firstTie.sourceKey) (d := db.dialect)
  obtain ⟨head, -, clause, hclause, -, -⟩ := Schema.narrows_select hspeaks h
  rw [eq_selectText relation.firstTie.fetchedFields hspeaks hclause h]
  exact .fetch hvisited htarget (spelledOwners_of_batchCondition hclause)

theorem sendsFrom_delete_spelled (db : Database) (entity : Entity) (log : Log) :
    db.delete.SendsFrom (db.SpelledDeletion db.dialect.spelling entity) entity log :=
  sendsFrom_delete (fun schema id _ hstored hsql =>
    ⟨schema, id, hstored, eq_deleteText (render_eqValue _ _ id) hsql⟩) log

theorem sends_createTable_spelled (db : Database) (model : String) :
    (db.createTable model : Edit Entity Unit).Sends (db.SpelledCreation db.dialect.spelling model) := by
  refine Edit.sends_lift_bind fun schema hschema => Edit.sends_bind (sends_execute db fun sql hsql => ?_)
    fun _ => Edit.sends_pure ()
  exact ⟨schema, hschema, spelledTable_of_render hsql⟩

/-- Every statement that creates the table of a model, or is sent while entities are saved, deleted or
embedded, defines and writes the columns under one text and selects and compares them under another
one.  For a name the two texts are the same if and only if it is no star and has no dot behind its
first character. -/
theorem columns_are_spelled (db : Database) :
    (∀ model, (db.createTable model : Edit Entity Unit).Sends
      (db.SpelledCreation db.dialect.spelling model)) ∧
    (∀ tree entity log, (db.save tree).SendsFrom (db.SpelledSave db.dialect.spelling tree entity)
      entity log) ∧
    (∀ tree entities log, (db.saveAll tree).SendsFrom
      (fun sql => ∃ entity ∈ entities, db.SpelledSave db.dialect.spelling tree entity sql) entities
      log) ∧
    (∀ entity log, db.delete.SendsFrom (db.SpelledDeletion db.dialect.spelling entity) entity log) ∧
    (∀ model tree entities log, (db.embed model tree).SendsFrom
      (db.SpelledFetch db.dialect.spelling model tree entities) entities log) ∧
    (∀ columns : List String, columnTexts db.dialect true (columns.map Column.ofPath) =
      .ok (columns.map db.dialect.spelling.read)) ∧
    ∀ name, db.dialect.spelling.read name = db.dialect.spelling.written name ↔
      name ≠ "*" ∧ '.' ∉ name.toList.tail := by
  have hsave : ∀ tree entity log, (db.save tree).SendsFrom
      (db.SpelledSave db.dialect.spelling tree entity) entity log :=
    fun tree entity => sendsFrom_save_of_allows (db.allowsSaves_spelled tree entity)
  exact ⟨db.sends_createTable_spelled, hsave, fun tree => sendsFrom_saveAll (hsave tree),
    db.sendsFrom_delete_spelled,
    fun model tree entities => sendsFrom_embed (db.allowsFetches_spelled model tree entities),
    columnTexts_ofPath db.dialect, fun name => Dialect.columnRef_eq_iff⟩

end Database

namespace Gallery

/-- Pages whose key has a dot in its name. -/
def dotted : Database :=
  ⟨answering [], ⟨.standard,
    [{ model "Page" "page" [serial "page.id", string "title"] [] with key := some "page.id" }]⟩⟩

def page : Row :=
  .ofPairs [("page.id", .integer 1), ("title", .text "A")]

end Gallery

open Gallery in
/-- A key with a dot in its name is defined and inserted as one name, but an update looks for it in
another table. -/
theorem dotted_key_is_split :
    ((dotted.createTable "Page" : Edit Entity Unit) (.hydrated "Page" page) []).log =
        ["CREATE TABLE \"page\" (\"page.id\" integer, \"title\" varchar(255), " ++
          "PRIMARY KEY (\"page.id\"))"] ∧
      (dotted.save .nil ⟨"Page", page, none, []⟩ []).log =
        ["INSERT INTO \"page\" (\"page.id\", \"title\") VALUES (1, 'A')"] ∧
      (dotted.save .nil ((Entity.hydrated "Page" page).set "title" (.text "B")) []).log =
        ["UPDATE \"page\" SET \"title\" = 'B' WHERE \"page\".\"id\" = 1"] ∧
      dotted.dialect.spelling.read "page.id" ≠ dotted.dialect.spelling.written "page.id" :=
  ⟨by rfl, by rfl, by rfl, by decide +kernel⟩

end RecordMapper
