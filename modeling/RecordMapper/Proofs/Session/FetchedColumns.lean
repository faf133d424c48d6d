import RecordMapper.Proofs.Session.Batching
import RecordMapper.Proofs.Session.LoadedPaths
import RecordMapper.Proofs.Session.Spelling

/-!
# Fetched columns

A tie that names fields fetches those and its own key.  A relation below looks for its own key on
what was fetched, and a key that no row shows gives it nothing to ask for: the relation comes back
empty, without an error and whatever is stored.
-/

namespace RecordMapper

namespace Relation

/-- The field of an owner that an embedding looks up. -/
def ownerKey : Relation → String
  | tie t => t.sourceKey
  | through _ _ route _ _ => route.sourceKey

theorem ownerKey_eq (relation : Relation) : relation.ownerKey = relation.firstTie.sourceKey := by
  cases relation <;> rfl

theorem firstTie_name_mem_slots (relation : Relation) :
    relation.firstTie.name ∈ relation.slots := by
  cases relation <;> simp [firstTie, slots]

theorem firstTie_of_relation {registry : Registry} {model name : String} {relation : Relation}
    (h : registry.relation model name = .ok relation) :
    registry.relation model relation.firstTie.name = .ok (.tie relation.firstTie) := by
  rw [← Registry.name_of_relation h] at h
  cases relation with
  | tie t => exact h
  | through own correlate route far mode => exact (Registry.parts_of_relation h).1

end Relation

namespace Edit

variable {σ α β : Type} {first : String → Prop}

/-- The edit sends nothing, or its first statement has a property. -/
def SendsFirst (first : String → Prop) (edit : Edit σ α) : Prop :=
  ∀ subject log, (edit subject log).log = log ∨
    ∃ sql rest, first sql ∧ (edit subject log).log = log ++ sql :: rest

theorem sendsFirst_pure (a : α) : (pure a : Edit σ α).SendsFirst first :=
  fun _ _ => .inl rfl

theorem sendsFirst_lift_bind {attempt : Attempt α} {next : α → Edit σ β}
    (hnext : ∀ a, attempt = .ok a → (next a).SendsFirst first) :
    ((liftM attempt : Edit σ α) >>= next).SendsFirst first := by
  intro subject log
  cases attempt with
  | error error => exact .inl rfl
  | ok a => exact hnext a rfl subject log

theorem sendsFirst_execute_bind {db : Database} {text : Attempt String}
    {next : List Row → Edit σ β} (htext : ∀ sql, text = .ok sql → first sql)
    (hnext : ∀ rows, (next rows).Sends fun _ => True) :
    ((db.execute text : Edit σ (List Row)) >>= next).SendsFirst first := by
  intro subject log
  cases text with
  | error error => exact .inl rfl
  | ok sql =>
      refine .inr ⟨sql, ?_⟩
      have hrun : ((db.execute (.ok sql) : Edit σ (List Row)) >>= next) subject log =
          ((db.send sql : Edit σ (List Row)) >>= next) subject log := rfl
      rw [hrun, bind_apply, Database.send_apply]
      cases db.connection.answer log sql with
      | error failure => exact ⟨[], htext sql rfl, rfl⟩
      | ok rows =>
          obtain ⟨added, hlog, -⟩ := hnext rows subject (log ++ [sql])
          refine ⟨added, htext sql rfl, hlog.trans ?_⟩
          simp

end Edit

namespace Tie

/-- A selection of columns is answered by rows with these columns alone. -/
def AnswersColumns (db : Database) (tie : Tie) (owners : List Entity) (log : Log) : Prop :=
  ∀ target sql rows, db.registry.schema tie.target = .ok target →
    (tie.fetchSelect target (distinctValues owners tie.sourceKey)).render db.dialect = .ok sql →
      db.connection.answer log sql = .ok rows →
        ∀ row ∈ rows, ∀ column, column ∉ tie.fetchedFields → row.get? column = none

/-- The selection of a tie with the columns that it names and its key. -/
def SelectsColumns (db : Database) (tie : Tie) (sql : String) : Prop :=
  ∃ target clause, db.registry.schema tie.target = .ok target ∧
    sql = "SELECT " ++ columnListText (tie.fetchedFields.map db.dialect.columnRef) ++ " FROM " ++
      db.dialect.quotePath target.tableName ++ " WHERE " ++ clause

variable {db : Database} {tie : Tie} {below : EmbedTree} {owners owners' fetched : List Entity}
  {log log' : Log} {column name : String} {relation : Relation}

theorem mem_fetchedFields (hfields : tie.fields ≠ []) :
    column ∈ tie.fetchedFields ↔ column ∈ tie.fields ∨ column = tie.targetKey := by
  rw [fetchedFields, if_neg (by simpa using hfields)]
  split
  next hkey =>
      have hmem : tie.targetKey ∈ tie.fields := by simpa using hkey
      refine ⟨.inl, ?_⟩
      rintro (hcolumn | rfl)
      · exact hcolumn
      · exact hmem
  next => simp

theorem selectsColumns_of_render (hfields : tie.fields ≠ []) {target : Schema} {values : List Value}
    {sql : String} (htarget : db.registry.schema tie.target = .ok target)
    (h : (tie.fetchSelect target values).render db.dialect = .ok sql) :
    tie.SelectsColumns db sql := by
  have hne : tie.fetchedFields ≠ [] :=
    List.ne_nil_of_mem ((mem_fetchedFields hfields).mpr (.inr rfl))
  obtain ⟨head, hhead, clause, -, -, rfl⟩ :=
    Schema.narrows_select (Relation.speaks_batchCondition (.tie tie) values) h
  rw [Schema.selectHead, Spelling.columnTexts_ofPath] at hhead
  cases hhead
  refine ⟨target, clause, htarget, ?_⟩
  rw [if_neg (by simpa using hne)]
  rfl

theorem sendsFirst_fetch (hfields : tie.fields ≠ []) (below : EmbedTree) (owners : List Entity) :
    (tie.fetch db (db.embed tie.target below) owners).SendsFirst (tie.SelectsColumns db) := by
  have hnested : (db.embed tie.target below).Sends fun _ => True :=
    fun _ => Database.sendsFrom_embed fun _ _ _ => trivial
  refine Edit.sendsFirst_lift_bind fun _ _ => Edit.sendsFirst_lift_bind fun _ _ => ?_
  dsimp only
  split
  next => exact Edit.sendsFirst_pure []
  next =>
      refine Edit.sendsFirst_lift_bind fun target htarget => Edit.sendsFirst_execute_bind
        (fun sql hsql => selectsColumns_of_render hfields htarget hsql) fun rows => ?_
      exact Edit.sends_bind (Edit.sends_lift _) fun hydrated => Edit.sends_applyTo hydrated hnested

theorem isLoaded_of_fetch
    (h : tie.fetch db (db.embed tie.target below) owners owners log = ⟨.ok fetched, owners', log'⟩)
    (hname : name ∈ below.names) (hrelation : db.registry.relation tie.target name = .ok relation) :
    ∀ related ∈ fetched, related.isLoaded relation.firstTie.name = true := by
  intro related hrelated
  have hbears := bears_fetch (Database.adds_embed db below tie.target) h related hrelated
  refine Entity.isLoaded_of_bears hbears ?_
  exact Registry.isSome_outline hname hrelation relation.firstTie_name_mem_slots .nil

theorem get?_eq_none_of_fetch
    (h : tie.fetch db (db.embed tie.target below) owners owners log = ⟨.ok fetched, owners', log'⟩)
    (hanswers : tie.AnswersColumns db owners log) (hcolumn : column ∉ tie.fetchedFields) :
    ∀ related ∈ fetched, related.get? column = none := by
  obtain ⟨-, ⟨-, rfl, -⟩ | ⟨-, target, sql, rows, hydrated, htarget, hsql, hrows, hhydrated,
    hrun⟩⟩ := cases_of_run_fetch h
  · nofun
  · have hfinish : (db.embed tie.target below).Embeds db target.model := by
      rw [Registry.model_of_schema htarget]
      exact Database.embeds_embed below tie.target
    intro related hrelated
    obtain ⟨row, hrow, hcast, -⟩ :=
      exists_of_mem_right (Database.read_of_hydrateAll hfinish hhydrated hrun) hrelated
    exact Schema.get?_castRow_of_none hcast
      (hanswers target sql rows htarget hsql hrows row hrow column hcolumn)

/-- A relation whose key was not selected finds nothing, and there is no error. -/
theorem attached_eq_nil_of_fetch
    (h : tie.fetch db (db.embed tie.target below) owners owners log = ⟨.ok fetched, owners', log'⟩)
    (hanswers : tie.AnswersColumns db owners log)
    (hrelation : db.registry.relation tie.target name = .ok relation)
    (hkey : relation.ownerKey ∉ tie.fetchedFields) :
    ∀ related ∈ fetched, related.attached relation.firstTie.name = [] := by
  intro related hrelated
  have hfetched := (run_fetch (Database.embeds_embed below tie.target) h).1 related hrelated
  obtain ⟨hmodel, -, -, ties, -⟩ := hfetched
  have hmissing := get?_eq_none_of_fetch h hanswers hkey related hrelated
  have hloads := ties relation.firstTie (hmodel ▸ Relation.firstTie_of_relation hrelation)
  refine List.eq_nil_iff_forall_not_mem.mpr fun found hfound => ?_
  obtain ⟨key, hownKey, -⟩ := hloads.keys found hfound
  rw [← Relation.ownerKey_eq, Entity.fieldKey?, hmissing] at hownKey
  cases hownKey

/-- A fetch with named fields sends first, if anything, the selection of these and of its own key.
The keys of the relations below are among the columns exactly if they are named or are that key.  A
relation whose key is not comes back empty on all that was fetched. -/
theorem fetch_selects_keys_iff (db : Database) (tie : Tie) (hfields : tie.fields ≠ [])
    (below : EmbedTree) (owners : List Entity) :
    (tie.fetch db (db.embed tie.target below) owners).SendsFirst (tie.SelectsColumns db) ∧
    tie.targetKey ∈ tie.fetchedFields ∧
    ((∀ name ∈ below.names, ∀ relation, db.registry.relation tie.target name = .ok relation →
        relation.ownerKey ∈ tie.fetchedFields) ↔
      ∀ name ∈ below.names, ∀ relation, db.registry.relation tie.target name = .ok relation →
        relation.ownerKey ∈ tie.fields ∨ relation.ownerKey = tie.targetKey) ∧
    ∀ log fetched owners' log', tie.fetch db (db.embed tie.target below) owners owners log =
        ⟨.ok fetched, owners', log'⟩ → tie.AnswersColumns db owners log →
      ∀ name ∈ below.names, ∀ relation, db.registry.relation tie.target name = .ok relation →
        relation.ownerKey ∉ tie.fetchedFields → ∀ related ∈ fetched,
          related.isLoaded relation.firstTie.name = true ∧
            related.attached relation.firstTie.name = [] := by
  refine ⟨sendsFirst_fetch hfields below owners, (mem_fetchedFields hfields).mpr (.inr rfl), ?_, ?_⟩
  · simp only [mem_fetchedFields hfields]
  · intro log fetched owners' log' h hanswers name hname relation hrelation hkey related hrelated
    exact ⟨isLoaded_of_fetch h hname hrelation related hrelated,
      attached_eq_nil_of_fetch h hanswers hrelation hkey related hrelated⟩

end Tie

namespace Gallery

def titles : Tie :=
  { images with name := "titles", fields := ["title"] }

example : (registry.relation "Gallery" "titles").toOption = some (.tie titles) := by rfl

def firstGallery : Entity :=
  .hydrated "Gallery" (.ofPairs [("id", .integer 1)])

/-- The row of the first image as a selection of titles shows it. -/
def titleRow : Row :=
  .ofPairs [("title", .text "A"), ("gallery_id", .integer 1)]

def titlesSelect : String :=
  "SELECT \"title\", \"gallery_id\" FROM \"image\" WHERE \"gallery_id\" IN (1)"

/-- The first gallery has one image, and the image one pivot. -/
def hanging : Database :=
  ⟨answeringEach [(titlesSelect, [titleRow]),
    ("SELECT * FROM \"image\" WHERE \"gallery_id\" IN (1)", [imageRow]),
    ("SELECT * FROM \"images_tags\" WHERE \"image_id\" IN (1)", [pivotRow 1 2])], registry⟩

theorem answersColumns_titles : titles.AnswersColumns hanging [firstGallery] [] := by
  intro target sql rows htarget hsql hrows row hrow column hcolumn
  have hschema : hanging.registry.schema titles.target = .ok image := by rfl
  cases hschema.symm.trans htarget
  have htext : (titles.fetchSelect image (distinctValues [firstGallery] titles.sourceKey)).render
      hanging.dialect = .ok titlesSelect := by rfl
  cases htext.symm.trans hsql
  cases hrows
  cases List.mem_singleton.mp hrow
  have hfetched : titles.fetchedFields = ["title", "gallery_id"] := by rfl
  rw [hfetched] at hcolumn
  simp only [List.mem_cons, List.not_mem_nil, or_false, not_or] at hcolumn
  rw [titleRow, Row.get?_ofPairs (by decide)]
  simp [List.lookup_cons, beq_eq_false_iff_ne.mpr hcolumn.1, beq_eq_false_iff_ne.mpr hcolumn.2]

def titledImage : Entity :=
  (Entity.hydrated "Image" titleRow).setRelation "images_tags" (.many ⟨"ImageTag", []⟩)

theorem fetch_titles :
    titles.fetch hanging (hanging.embed "Image" (.cons "images_tags" .nil .nil)) [firstGallery]
        [firstGallery] [] =
      ⟨.ok [titledImage], [firstGallery], [titlesSelect]⟩ := by rfl

end Gallery

open Gallery in
theorem fetch_selects_keys_titles : titles.targetKey ∈ titles.fetchedFields ∧
    titledImage.isLoaded "images_tags" = true ∧ titledImage.attached "images_tags" = [] := by
  have hfields : titles.fields ≠ [] := by decide
  obtain ⟨-, hkey, -, hhidden⟩ := Tie.fetch_selects_keys_iff hanging titles hfields
    (.cons "images_tags" .nil .nil) [firstGallery]
  have hrelation : hanging.registry.relation titles.target "images_tags" =
      .ok (.tie (pivots "ImageTag" "images_tags")) := by rfl
  have hhiddenKey : (Relation.tie (pivots "ImageTag" "images_tags")).ownerKey ∉
      titles.fetchedFields := by decide
  exact ⟨hkey, hhidden [] _ _ _ fetch_titles answersColumns_titles "images_tags" (by decide) _
    hrelation hhiddenKey titledImage (List.mem_singleton_self _)⟩

open Gallery in
/-- With the titles alone no image has the key of its pivots, so that none are fetched.  With all
fields the same image has one. -/
theorem titles_hide_pivots :
    titles.fetch hanging (hanging.embed "Image" (.cons "images_tags" .nil .nil)) [firstGallery]
          [firstGallery] [] =
        ⟨.ok [(Entity.hydrated "Image" titleRow).setRelation "images_tags"
            (.many ⟨"ImageTag", []⟩)], [firstGallery],
          ["SELECT \"title\", \"gallery_id\" FROM \"image\" WHERE \"gallery_id\" IN (1)"]⟩ ∧
      images.fetch hanging (hanging.embed "Image" (.cons "images_tags" .nil .nil)) [firstGallery]
          [firstGallery] [] =
        ⟨.ok [(Entity.hydrated "Image" imageRow).setRelation "images_tags"
            (.many ⟨"ImageTag", [.hydrated "ImageTag" (pivotRow 1 2)]⟩)], [firstGallery],
          ["SELECT * FROM \"image\" WHERE \"gallery_id\" IN (1)",
            "SELECT * FROM \"images_tags\" WHERE \"image_id\" IN (1)"]⟩ ∧
      hanging.registry.relation titles.target "images_tags" =
        .ok (.tie (pivots "ImageTag" "images_tags")) ∧
      (Relation.tie (pivots "ImageTag" "images_tags")).ownerKey ∉ titles.fetchedFields :=
  ⟨fetch_titles, by rfl, by rfl, by decide⟩

end RecordMapper
