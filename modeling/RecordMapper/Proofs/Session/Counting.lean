import RecordMapper.Proofs.Session.Gallery
import RecordMapper.Proofs.Session.QueryCalls

/-!
# Counts

The count of a query is one selection of the number of rows, with the conditions and groups of the
query.  What else was called, and when, does not change it: `count_ignores_presentation`.
-/

namespace RecordMapper

namespace Query

variable {schema : Schema} {calls calls' : List Call} {q : Query}

/-! ## What is not counted -/

def counted (q : Query) : Query :=
  ⟨q.schema, { q.select with columns := [], order := [], limit := none, offset := none }, .nil⟩

theorem counted_apply (q : Query) (call : Call) :
    counted <$> call.apply q = if call.isCounted then call.apply q.counted else .ok q.counted := by
  cases call with
  | jsonFilter input =>
      change counted <$> (Condition.ofJson input >>= fun c => .ok (q.addFilter c)) =
        Condition.ofJson input >>= fun c => .ok (q.counted.addFilter c)
      cases Condition.ofJson input <;> rfl
  | _ => rfl

theorem counted_foldlM (calls : List Call) (q : Query) :
    counted <$> calls.foldlM Call.apply q =
      (calls.filter Call.isCounted).foldlM Call.apply q.counted := by
  induction calls generalizing q with
  | nil => rfl
  | cons call rest ih =>
      have hrest : counted <$> (call :: rest).foldlM Call.apply q =
          counted <$> call.apply q >>= (rest.filter Call.isCounted).foldlM Call.apply := by
        rw [List.foldlM_cons, map_bind, bind_map_left]
        exact bind_congr ih
      rw [hrest, counted_apply, List.filter_cons]
      split
      next => rw [List.foldlM_cons]
      next => rfl

theorem counted_built (schema : Schema) (calls : List Call) :
    counted <$> built schema calls = built schema (calls.filter Call.isCounted) :=
  counted_foldlM calls (ofSchema schema)

theorem render_countSelect_counted (d : Dialect) (q : Query) :
    q.counted.countSelect.render d = q.countSelect.render d := by
  rw [Select.render_paged d q.counted.countSelect, Select.render_paged d q.countSelect]
  rfl

theorem count_counted {σ : Type} (db : Database) (q : Query) :
    (q.counted.count db : Edit σ Nat) = q.count db := by
  rw [count, render_countSelect_counted, count]

/-! ## The statement -/

def groupText (d : Dialect) (group : List Column) : Attempt String := do
  let texts ← columnTexts d false group
  return if group.isEmpty then "" else " " ++ "GROUP BY" ++ " " ++ columnListText texts

/-- The selection of the number of rows of a table. -/
def countText (d : Dialect) (table : String) (filter : Condition) (group : List Column)
    (having : Condition) : Attempt String := do
  let filterSql ← renderClause d .where filter
  let groupSql ← groupText d group
  let havingSql ← renderClause d .having having
  return "SELECT" ++ " " ++ withAlias d "COUNT(*)" "count" ++ " " ++ "FROM" ++ " " ++
    d.quotePath table ++ filterSql ++ groupSql ++ havingSql

theorem render_countColumn (d : Dialect) :
    columnTexts d true [.expr (.call "count" []) (some "count")] =
      pure [withAlias d "COUNT(*)" "count"] := by
  have hname : "count".toUpper = "COUNT" := by decide +kernel
  have hbody : (Condition.call "count" []).body d = .ok "COUNT(*)" := by
    rw [Condition.call, hname]
    rfl
  rw [columnTexts, Column.render, hbody]
  rfl

theorem render_countSelect (h : LeftBy schema calls q) (d : Dialect) :
    q.countSelect.render d =
      countText d schema.tableName q.select.filter q.select.group q.select.having := by
  obtain ⟨_, ⟨distinct, modifiers, columns, sources, joins, filter, group, having, order, limit,
    offset, forUpdate⟩, tree⟩ := q
  cases h.outline
  have hmodifiers : modifiersText d .select .none = pure "" := rfl
  have hsource : sourceTexts d [.named schema.tableName] = pure [d.quotePath schema.tableName] :=
    rfl
  have hjoins : joinTextsOf d [] = pure [] := rfl
  have horder : orderTexts d [] = pure [] := rfl
  have hcolumns : columnListText [withAlias d "COUNT(*)" "count"] =
      withAlias d "COUNT(*)" "count" := by
    simp [columnListText, List.eraseDups_cons]
  change Select.render d ⟨false, .none, [.expr (.call "count" []) (some "count")],
    [.named schema.tableName], [], filter, group, having, [], none, offset, false⟩ =
      countText d schema.tableName filter group having
  rw [Select.render, render_countColumn, hmodifiers, hsource, hjoins, horder]
  rw [if_neg (by simp), countText]
  simp only [groupText, renderClause, pure_bind, bind_assoc, hcolumns]
  refine bind_congr fun filterSql => bind_congr fun groupSql => bind_congr fun havingSql => ?_
  have hselect : Keyword.select.text = "SELECT" := rfl
  have hfrom : Keyword.from.text = "FROM" := rfl
  have hgroup : Keyword.groupBy.text = "GROUP BY" := rfl
  have hjoin : String.join [] = "" := rfl
  have hsort : orderText [] = "" := rfl
  have hlimit : limitText none = "" := rfl
  have hoffset : offsetText none offset = "" := rfl
  simp only [hselect, hfrom, hgroup, hjoin, hsort, hlimit, hoffset, String.intercalate_singleton,
    List.isEmpty_cons, Bool.false_eq_true, if_false, String.append_empty]

theorem count_apply {σ : Type} (db : Database) (q : Query) (subject : σ) (log : Log) :
    q.count db subject log =
      match q.countSelect.render db.dialect with
      | .ok sql =>
          ⟨((db.connection.answer log sql).mapError Error.backend).map countOf, subject,
            log ++ [sql]⟩
      | .error error => ⟨.error error, subject, log⟩ := by
  rw [count]
  cases q.countSelect.render db.dialect with
  | error error => rfl
  | ok sql =>
      change ((db.send sql : Edit σ (List Row)) >>= fun rows => pure (countOf rows)) subject log = _
      rw [Edit.bind_apply, Database.send_apply]
      dsimp only
      cases db.connection.answer log sql <;> rfl

/-- Lists of calls that differ in columns, order, limits, offsets, pages and embeddings alone give one
count: one statement, or one error.  It is the selection of the number of rows of the table, with the
conditions and groups of all calls. -/
theorem count_ignores_presentation
    (h : calls.filter Call.isCounted = calls'.filter Call.isCounted) :
    (∀ d, (built schema calls).map (fun q => q.countSelect.render d) =
      (built schema calls').map fun q => q.countSelect.render d) ∧
    (∀ (σ : Type) (db : Database), (built schema calls).map (count db : Query → Edit σ Nat) =
      (built schema calls').map (count db)) ∧
    ∀ q, built schema calls = .ok q →
      (∀ d, q.countSelect.render d = countText d schema.tableName
        ((calls.flatMap Call.conditions).foldl Condition.both .always)
        (calls.flatMap Call.groups)
        ((calls.flatMap Call.havings).foldl Condition.both .always)) ∧
      ∀ {σ : Type} (db : Database) (subject : σ) (log : Log), q.count db subject log =
        match q.countSelect.render db.dialect with
        | .ok sql =>
            ⟨((db.connection.answer log sql).mapError Error.backend).map countOf, subject,
              log ++ [sql]⟩
        | .error error => ⟨.error error, subject, log⟩ := by
  have hbuilt : counted <$> built schema calls = counted <$> built schema calls' := by
    rw [counted_built, counted_built, h]
  refine ⟨fun d => ?_, fun σ db => ?_, fun q hq => ⟨fun d => ?_, fun db => count_apply db q⟩⟩
  · have hrender := congrArg (Functor.map fun q => q.countSelect.render d) hbuilt
    simp only [Functor.map_map, render_countSelect_counted] at hrender
    exact hrender
  · have hcount := congrArg (Functor.map (count db : Query → Edit σ Nat)) hbuilt
    simp only [Functor.map_map, count_counted] at hcount
    exact hcount
  · have hleft := leftBy_built hq
    rw [render_countSelect hleft, hleft.filter, hleft.group, hleft.having]

def ofGallery : List Call :=
  [.filter (.eq (.ofPath "gallery_id") (.value (.integer 1)))]

def titlePage : List Call :=
  [.limit 10, .columns [.ofPath "title"]] ++ ofGallery ++
    [.order [⟨.ofPath "title", .descending⟩], .page 3]

theorem count_ignores_titlePage :
    titlePage.filter Call.isCounted = ofGallery.filter Call.isCounted ∧
    (built Gallery.image titlePage).map (fun q => q.countSelect.render .generic) =
      (built Gallery.image ofGallery).map (fun q => q.countSelect.render .generic) ∧
    ∃ q, built Gallery.image titlePage = .ok q ∧ q.countSelect.render .generic =
      .ok "SELECT COUNT(*) AS \"count\" FROM \"image\" WHERE \"gallery_id\" = 1" := by
  have hcounted : titlePage.filter Call.isCounted = ofGallery.filter Call.isCounted := rfl
  obtain ⟨hsame, -, hcount⟩ := count_ignores_presentation hcounted
  refine ⟨hcounted, hsame .generic, _, rfl, ?_⟩
  rw [(hcount _ rfl).1]
  rfl

end Query

end RecordMapper
