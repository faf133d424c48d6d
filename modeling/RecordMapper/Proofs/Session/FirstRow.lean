import RecordMapper.Proofs.Session.Loading
import RecordMapper.Proofs.Session.QueryCalls
import RecordMapper.Proofs.Session.SelectionCount

/-!
# The first row

The first entity of a query is selected with a limit of one, and otherwise as all entities are.  An
offset without a limit is stored but not written, and the limit of one brings it to light: the first
row is then not that of all rows.  `first_selects_head_iff` says that this is the only case.
-/

namespace RecordMapper

namespace Edit

variable {σ α β : Type} {text : Attempt String}

/-- The edit sends a text before all else, and a text that cannot be written is its failure. -/
structure Opens (text : Attempt String) (edit : Edit σ α) : Prop where
  sends : ∀ sql, text = .ok sql → ∀ subject log, ∃ rest,
    (edit subject log).log = log ++ sql :: rest
  fails : ∀ error, text = .error error → ∀ subject log,
    edit subject log = ⟨.error error, subject, log⟩

theorem opens_execute (db : Database) (text : Attempt String) :
    (db.execute text : Edit σ (List Row)).Opens text where
  sends sql hsql subject log := by
    rw [hsql]
    exact ⟨[], rfl⟩
  fails error herror subject log := by
    rw [herror]
    rfl

theorem opens_bind {edit : Edit σ α} {next : α → Edit σ β} (hedit : edit.Opens text)
    (hnext : ∀ a, (next a).Sends fun _ => True) : (edit >>= next).Opens text where
  sends sql hsql subject log := by
    obtain ⟨rest, hrest⟩ := hedit.sends sql hsql subject log
    rw [bind_apply]
    cases (edit subject log).result with
    | error error => exact ⟨rest, hrest⟩
    | ok a =>
        obtain ⟨added, hadded, -⟩ := hnext a (edit subject log).subject (edit subject log).log
        refine ⟨rest ++ added, hadded.trans ?_⟩
        rw [hrest, List.append_assoc, List.cons_append]
  fails error herror subject log := by
    rw [bind_apply, hedit.fails error herror]

end Edit

namespace Query

variable {σ : Type} {schema : Schema} {calls : List Call} {q : Query} {db : Database}

theorem opens_run (db : Database) (q : Query) (select : Select) :
    (q.run db select : Edit σ (List Entity)).Opens (select.render db.dialect) := by
  have hnested : (db.embed q.schema.model q.tree).Sends fun _ => True :=
    fun _ => Database.sendsFrom_embed fun _ _ _ => trivial
  refine Edit.opens_bind (Edit.opens_execute db _) fun rows => ?_
  exact Edit.sends_bind (Edit.sends_lift _) fun hydrated => Edit.sends_applyTo hydrated hnested

theorem opens_all (db : Database) (q : Query) :
    (q.all db : Edit σ Collection).Opens (q.select.render db.dialect) :=
  Edit.opens_bind (opens_run db q q.select) fun _ => Edit.sends_pure _

theorem opens_first (db : Database) (q : Query) :
    (q.first db : Edit σ (Option Entity)).Opens (q.firstSelect.render db.dialect) :=
  Edit.opens_bind (opens_run db q q.firstSelect) fun _ => Edit.sends_pure _

/-! ## The entities of one result -/

/-- The selection of a query and that of its first entity are answered from the same rows, each with
the page that it asks for. -/
structure AnswersFrom (db : Database) (q : Query) (rows : List Row) (log log' : Log) : Prop where
  all : ∀ sql, q.select.render db.dialect = .ok sql →
    db.connection.answer log sql = .ok (q.select.paging.window rows)
  first : ∀ sql, q.firstSelect.render db.dialect = .ok sql →
    db.connection.answer log' sql = .ok (q.firstSelect.paging.window rows)

theorem fields_head?_of_read {rows : List Row} {entities firsts : List Entity}
    (hall : List.Forall₂ (fun row entity => schema.castRow row = .ok entity.fields) rows entities)
    (hfirst : List.Forall₂ (fun row entity => schema.castRow row = .ok entity.fields)
      (rows.take 1) firsts) :
    firsts.head?.map Entity.fields = entities.head?.map Entity.fields := by
  cases hall with
  | nil =>
      cases hfirst
      rfl
  | @cons row entity rows entities hrow _ =>
      obtain ⟨first, rest, hcast, -, rfl⟩ := List.forall₂_cons_left_iff.mp hfirst
      have hfields : entity.fields = first.fields := Except.ok.inj (hrow.symm.trans hcast)
      rw [List.head?_cons, List.head?_cons, Option.map_some, Option.map_some, hfields]

theorem read_of_run {select : Select} {subject subject' : σ} {log log' : Log} {rows : List Row}
    {entities : List Entity}
    (hrows : ∀ sql, select.render db.dialect = .ok sql → db.connection.answer log sql = .ok rows)
    (h : (q.run db select : Edit σ (List Entity)) subject log = ⟨.ok entities, subject', log'⟩) :
    List.Forall₂ (fun row entity => q.schema.castRow row = .ok entity.fields) rows entities := by
  obtain ⟨-, sql, answer, hsql, hanswer, hread⟩ :=
    Database.run_load (Database.embeds_embed q.tree q.schema.model) h
  cases (hrows sql hsql).symm.trans hanswer
  exact hread.imp fun _ _ h => h.1

theorem first_of_all (hhidden : ¬ q.select.HidesOffset) (hlimit : q.select.limit ≠ some 0)
    (hoffset : q.select.offset ≠ some 0) {rows : List Row} {log log' sent sent' : Log}
    {s s' t t' : σ} {collection : Collection} {found : Option Entity}
    (hrows : q.AnswersFrom db rows log log')
    (hall : q.all db s log = ⟨.ok collection, t, sent⟩)
    (hfirst : q.first db s' log' = ⟨.ok found, t', sent'⟩) :
    found.map Entity.fields = collection.entities.head?.map Entity.fields := by
  obtain ⟨entities, _, _, hrun, hcollection⟩ := Edit.run_bind hall
  obtain ⟨rfl, -⟩ := Edit.run_pure hcollection
  obtain ⟨firsts, _, _, hrunFirst, hfound⟩ := Edit.run_bind hfirst
  obtain ⟨rfl, -⟩ := Edit.run_pure hfound
  have hread := read_of_run hrows.all hrun
  have hreadFirst := read_of_run hrows.first hrunFirst
  rw [firstSelect, (Select.window_setLimit_one_iff hlimit hoffset).mpr hhidden rows] at hreadFirst
  exact fields_head?_of_read hread hreadFirst

/-! ## The selections -/

theorem render_select_built (h : built schema calls = .ok q) (d : Dialect) :
    q.select.render d = (fun front => front ++ q.select.paging.text) <$>
      q.select.unpaged.render d := by
  have hlock : q.select.lockText = "" := by
    have hupdate : q.select.forUpdate = false :=
      congrArg Select.forUpdate (leftBy_built h).outline
    rw [Select.lockText, hupdate]
    rfl
  rw [Select.render_paged, hlock]
  simp only [String.append_empty]

theorem render_firstSelect_built (h : built schema calls = .ok q) (d : Dialect) :
    q.firstSelect.render d = (fun front => front ++ Paging.text ⟨some 1, q.select.offset⟩) <$>
      q.select.unpaged.render d := by
  have hfirst : built schema (calls ++ [.limit 1]) = .ok (q.setLimit 1) := by
    rw [built, List.foldlM_append, ← built, h]
    rfl
  exact render_select_built hfirst d

/-- The first entity is asked for with the clauses of all entities, a limit of one and the stored
offset.  Its text is that of all entities with another limit if and only if no offset is hidden, and
so it is the first row of all; the entity that is found is then the first of all entities. -/
theorem first_selects_head_iff (h : built schema calls = .ok q) :
    (∀ d, q.select.render d =
        (fun front => front ++ q.select.paging.text) <$> q.select.unpaged.render d ∧
      q.firstSelect.render d =
        (fun front => front ++ Paging.text ⟨some 1, q.select.offset⟩) <$>
          q.select.unpaged.render d) ∧
    (∀ (σ : Type) (db : Database),
      (q.all db : Edit σ Collection).Opens (q.select.render db.dialect) ∧
      (q.first db : Edit σ (Option Entity)).Opens (q.firstSelect.render db.dialect)) ∧
    (Paging.text ⟨some 1, q.select.offset⟩ = q.select.paging.first.text ↔
      ¬ q.select.HidesOffset) ∧
    ((∀ rows : List Row, q.firstSelect.paging.window rows =
      (q.select.paging.window rows).take 1) ↔ ¬ q.select.HidesOffset) ∧
    (¬ q.select.HidesOffset → ∀ {σ : Type} (db : Database) (rows : List Row)
      (log log' sent sent' : Log) (s s' t t' : σ) (collection : Collection) (found : Option Entity),
      q.AnswersFrom db rows log log' → q.all db s log = ⟨.ok collection, t, sent⟩ →
      q.first db s' log' = ⟨.ok found, t', sent'⟩ →
      found.map Entity.fields = collection.entities.head?.map Entity.fields) := by
  have hleft := leftBy_built h
  refine ⟨fun d => ⟨render_select_built h d, render_firstSelect_built h d⟩,
    fun σ db => ⟨opens_all db q, opens_first db q⟩, Select.text_setLimit_one_iff,
    Select.window_setLimit_one_iff hleft.limit hleft.offset, ?_⟩
  intro hhidden σ db rows log log' sent sent' s s' t t' collection found hrows hall hfirst
  exact first_of_all hhidden hleft.limit hleft.offset hrows hall hfirst

def tagRow (id : Int64) : Row :=
  .ofPairs [("id", .integer id)]

/-- The second page of four tags, and its first row alone. -/
def secondPage : Database :=
  ⟨Gallery.answeringEach [("SELECT * FROM \"tag\" LIMIT 2 OFFSET 2", [tagRow 3, tagRow 4]),
    ("SELECT * FROM \"tag\" LIMIT 1 OFFSET 2", [tagRow 3])], Gallery.registry⟩

theorem first_selects_head_of_secondPage :
    ∃ q collection found, built Gallery.tag [.limit 2, .page 2] = .ok q ∧
      ¬ q.select.HidesOffset ∧
      q.AnswersFrom secondPage [tagRow 1, tagRow 2, tagRow 3, tagRow 4] [] [] ∧
      q.all secondPage () [] =
        ⟨.ok collection, (), ["SELECT * FROM \"tag\" LIMIT 2 OFFSET 2"]⟩ ∧
      q.first secondPage () [] =
        ⟨.ok (some found), (), ["SELECT * FROM \"tag\" LIMIT 1 OFFSET 2"]⟩ ∧
      some found.fields = collection.entities.head?.map Entity.fields := by
  have hbuilt : built Gallery.tag [.limit 2, .page 2] =
      .ok (((ofSchema Gallery.tag).setLimit 2).setPage 2) := rfl
  have hhidden : ¬ (((ofSchema Gallery.tag).setLimit 2).setPage 2).select.HidesOffset :=
    fun h => nomatch h.1
  have hrows : (((ofSchema Gallery.tag).setLimit 2).setPage 2).AnswersFrom secondPage
      [tagRow 1, tagRow 2, tagRow 3, tagRow 4] [] [] := by
    refine ⟨fun sql hsql => ?_, fun sql hsql => ?_⟩
    · cases hsql
      rfl
    · cases hsql
      rfl
  exact ⟨_, _, _, hbuilt, hhidden, hrows, rfl, rfl,
    (first_selects_head_iff hbuilt).2.2.2.2 hhidden secondPage _ [] [] _ _ () () () () _ _ hrows
      rfl rfl⟩

/-- Two tags, and what an offset of one leaves of them. -/
def twoTags : Database :=
  ⟨Gallery.answeringEach [("SELECT * FROM \"tag\"", [tagRow 1, tagRow 2]),
    ("SELECT * FROM \"tag\" LIMIT 1 OFFSET 1", [tagRow 2])], Gallery.registry⟩

/-- All entities are selected without the offset, the first one with it: it is the second of all. -/
theorem first_skips_row :
    ∃ q, built Gallery.tag [.offset 1] = .ok q ∧
      q.select.render .generic = .ok "SELECT * FROM \"tag\"" ∧
      q.firstSelect.render .generic = .ok "SELECT * FROM \"tag\" LIMIT 1 OFFSET 1" ∧
      q.select.paging.first.text = " LIMIT 1" ∧
      q.AnswersFrom twoTags [tagRow 1, tagRow 2] [] [] ∧
      ∃ collection found,
        q.all twoTags () [] = ⟨.ok collection, (), ["SELECT * FROM \"tag\""]⟩ ∧
        q.first twoTags () [] =
          ⟨.ok (some found), (), ["SELECT * FROM \"tag\" LIMIT 1 OFFSET 1"]⟩ ∧
        some found.fields ≠ collection.entities.head?.map Entity.fields := by
  refine ⟨(ofSchema Gallery.tag).setOffset 1, rfl, rfl, rfl, rfl, ⟨fun sql hsql => ?_,
    fun sql hsql => ?_⟩, _, _, rfl, rfl, ?_⟩
  · cases hsql
    rfl
  · cases hsql
    rfl
  · intro hsame
    have hids := congrArg (Option.map fun row => row.get? "id") hsame
    cases hids

end Query

end RecordMapper
