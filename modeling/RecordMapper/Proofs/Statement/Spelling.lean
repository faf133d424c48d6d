import RecordMapper.Proofs.Condition.Constrained
import RecordMapper.Proofs.Dialect.ColumnNames
import RecordMapper.Proofs.Schema.Creation
import RecordMapper.Proofs.Statement.Clause
import RecordMapper.Proofs.Statement.InsertedRows

/-!
# How statements spell columns

A column is defined and written under one text, and selected and compared under another one.  The whole
text of every statement on the rows of one table is given here with both texts as parameters.
-/

namespace RecordMapper

structure Spelling where
  /-- Where a column is defined, inserted or assigned. -/
  written : String → String
  /-- Where a column is selected or compared. -/
  read : String → String

namespace Dialect

def spelling (d : Dialect) : Spelling :=
  ⟨d.quoteIdentifier, d.columnRef⟩

end Dialect

namespace Spelling

variable (names : Spelling) (d : Dialect)

/-! ## Texts -/

def equalText (column : String) (value : Value) : String :=
  names.read column ++ " = " ++ d.literal value

def memberText (column : String) (values : List Value) : String :=
  names.read column ++ " IN (" ++
    (if values.isEmpty then "NULL" else ", ".intercalate (values.map d.literal)) ++ ")"

def moreText (more : String) : String :=
  if more = "" then "" else " AND " ++ more

def whereText (clause : String) : String :=
  if clause = "" then "" else " WHERE " ++ clause

def columnsText (columns : List String) : String :=
  parenthesize (", ".intercalate (columns.map names.written))

def insertText (schema : Schema) (values : List (String × Value)) : String :=
  "INSERT INTO " ++ d.quotePath schema.tableName ++
    if values.isEmpty then " DEFAULT VALUES"
    else " " ++ names.columnsText (values.map Prod.fst) ++ " VALUES (" ++
      ", ".intercalate (values.map fun pair => d.literal pair.2) ++ ")"

def updateText (schema : Schema) (changes : List (String × Value)) (id : Value) : String :=
  "UPDATE " ++ d.quotePath schema.tableName ++ " SET " ++
    ", ".intercalate (changes.map fun pair => names.written pair.1 ++ " = " ++ d.literal pair.2) ++
    " WHERE " ++ names.equalText d schema.keyName id

def deleteText (schema : Schema) (clause : String) : String :=
  "DELETE FROM " ++ d.quotePath schema.tableName ++ whereText clause

/-- Without columns, all of them are selected. -/
def selectText (schema : Schema) (columns : List String) (clause : String) : String :=
  "SELECT " ++ (if columns.isEmpty then "*" else columnListText (columns.map names.read)) ++
    " FROM " ++ d.quotePath schema.tableName ++ whereText clause

def ruleText : Rule → Attempt String
  | .primaryKey columns => .ok ("PRIMARY KEY " ++ names.columnsText columns)
  | .unique columns => .ok ("UNIQUE " ++ names.columnsText columns)
  | .foreignKey columns table references onDelete onUpdate =>
      .ok ("FOREIGN KEY " ++ names.columnsText columns ++ " REFERENCES " ++ d.quotePath table ++ " " ++
        names.columnsText references ++ Dialect.actionText .onDelete onDelete ++
        Dialect.actionText .onUpdate onUpdate)
  | .check condition => do return "CHECK (" ++ (← condition.render d) ++ ")"

def constraintText (constraint : Constraint) : Attempt String := do
  let rule ← names.ruleText d constraint.rule
  match constraint.name with
  | some name => return "CONSTRAINT " ++ d.quoteIdentifier name ++ " " ++ rule
  | none => return rule

def keyTexts (schema : Schema) : List String :=
  if schema.hasField schema.keyName then ["PRIMARY KEY " ++ names.columnsText [schema.keyName]] else []

/-- The statement defines each field of a schema under its name, and the key and the constraints name
their columns alike. -/
def SpelledTable (p : Platform) (schema : Schema) (sql : String) : Prop :=
  ∃ columns rules,
    List.Forall₂ (fun field text => p.columnText field = .ok text ∧
      ∃ rest, text = names.written field.name ++ " " ++ rest) schema.fields columns ∧
    List.Forall₂ (fun rule text => names.constraintText p.dialect rule = .ok text) schema.constraints
      rules ∧
    sql = "CREATE TABLE " ++ p.dialect.quotePath schema.tableName ++ " (" ++
      ", ".intercalate (columns ++ names.keyTexts schema ++ rules) ++ ")"

end Spelling

/-! ## Conditions -/

variable {d : Dialect}

theorem body_eq (d : Dialect) (column : String) (value : Value) :
    (Condition.eq (.ofPath column) (.value value)).body d =
      .ok (d.spelling.equalText d column value) := by
  change Except.ok (d.columnRef column ++ " " ++ "=" ++ " " ++ d.literal value) = _
  simp only [Spelling.equalText, Dialect.spelling, String.append_assoc]
  rfl

theorem body_inList (d : Dialect) (column : String) (values : List Value) :
    (Condition.inList (.ofPath column) values).body d =
      .ok (d.spelling.memberText d column values) := by
  cases values with
  | nil =>
      change Except.ok (d.columnRef column ++ " " ++ "IN" ++ " " ++ ("(" ++ "NULL" ++ ")")) = _
      simp only [Spelling.memberText, Dialect.spelling, String.append_assoc]
      rfl
  | cons value rest =>
      change Except.ok (d.columnRef column ++ " " ++ "IN" ++ " " ++
        ("(" ++ ", ".intercalate ((value :: rest).map d.literal) ++ ")")) = _
      simp only [Spelling.memberText, Dialect.spelling, String.append_assoc]
      rfl

theorem render_eqValue (d : Dialect) (column : String) (value : Value) :
    (Condition.eq (.ofPath column) (.value value)).render d =
      .ok (d.spelling.equalText d column value) :=
  (Condition.render_eq_body rfl).trans (body_eq d column value)

theorem render_inList (d : Dialect) (column : String) (values : List Value) :
    (Condition.inList (.ofPath column) values).render d =
      .ok (d.spelling.memberText d column values) :=
  (Condition.render_eq_body rfl).trans (body_inList d column values)

namespace Spelling

variable {schema : Schema} {condition : Condition} {clause sql : String}

theorem append_moreText (text more : String) :
    text ++ moreText more = if more = "" then text else text ++ " AND " ++ more := by
  rw [moreText]
  split
  · exact String.append_empty
  · rw [String.append_assoc]

theorem renderClause_where (htext : condition.render d = .ok sql)
    (h : renderClause d .where condition = .ok clause) : clause = whereText sql := by
  rw [renderClause, clauseText] at h
  split at h
  next hempty =>
      have hsubquery : condition.isSubquery = false := by
        cases condition <;> first | rfl | cases hempty
      rw [Condition.render_eq_body hsubquery, Condition.body_of_isEmpty d _ hempty] at htext
      cases htext
      exact (Except.ok.inj h).symm
  next =>
      rw [htext] at h
      have hclause : (if sql.isEmpty then "" else " " ++ Keyword.where.text ++ " " ++ sql) = clause :=
        Except.ok.inj h
      rw [← hclause, whereText]
      simp only [String.isEmpty_iff, String.append_assoc]
      rfl

/-! ## Statements -/

theorem eq_deleteText (hclause : condition.render d = .ok clause)
    (h : (schema.deleteOf condition).render d = .ok sql) : sql = deleteText d schema clause := by
  obtain ⟨whereSql, hwhere, rfl⟩ := Schema.render_deleteOf h
  rw [renderClause_where hclause hwhere]
  rfl

theorem columnTexts_ofPath (d : Dialect) (columns : List String) :
    columnTexts d true (columns.map Column.ofPath) = .ok (columns.map d.spelling.read) := by
  induction columns with
  | nil => rfl
  | cons column rest ih =>
      rw [List.map_cons, columnTexts, ih]
      have hcolumn : (Column.ofPath column).render d true = .ok (d.columnRef column) := by
        rw [Column.ofPath, Column.render, if_neg (by simp)]
        rfl
      rw [hcolumn]
      rfl

theorem eq_selectText (columns : List String) (hspeaks : condition.Speaks d)
    (hclause : condition.render d = .ok clause)
    (h : ((schema.select.addColumns (columns.map Column.ofPath)).addFilter condition).render d =
      .ok sql) : sql = d.spelling.selectText d schema columns clause := by
  obtain ⟨head, hhead, text, htext, hne, rfl⟩ := Schema.narrows_select hspeaks h
  cases hclause.symm.trans htext
  rw [Schema.selectHead, columnTexts_ofPath] at hhead
  cases hhead
  rw [selectText, whereText, if_neg hne]
  simp only [String.append_assoc, List.isEmpty_map]

theorem eq_updateText {changes : List (String × Value)} {id : Value}
    (h : (schema.updateOf changes id).render d = .ok sql) :
    sql = d.spelling.updateText d schema changes id := by
  obtain ⟨text, htext, -, rfl⟩ := Schema.narrows_updateOf h
  cases (render_eqValue d schema.keyName id).symm.trans htext
  rfl

theorem nodup_insertedValues (schema : Schema) (entity : Entity) :
    ((schema.insertedValues entity).map Prod.fst).Nodup :=
  entity.fields.distinct.sublist (List.filter_sublist.map Prod.fst)

theorem rowsText_single {row : List (String × Value)} (h : (row.map Prod.fst).Nodup)
    (hsome : row.isEmpty = false) :
    Insert.rowsText d row [row] = .ok (d.spelling.columnsText (row.map Prod.fst) ++ " VALUES (" ++
      ", ".intercalate (row.map fun pair => d.literal pair.2) ++ ")") := by
  have htuple : Insert.rowText d (row.map Prod.fst) row =
      .ok ("(" ++ ", ".intercalate (row.map fun pair => d.literal pair.2) ++ ")") := by
    rw [Insert.rowText, if_pos (List.length_map _).symm, Insert.rowValues_self h]
    change Except.ok (parenthesize (", ".intercalate ((row.map Prod.snd).map d.literal))) = _
    rw [List.map_map]
    rfl
  have htuples : [row].mapM (Insert.rowText d (row.map Prod.fst)) =
      .ok ["(" ++ ", ".intercalate (row.map fun pair => d.literal pair.2) ++ ")"] :=
    attempt_mapM_eq_ok.mpr (.cons htuple .nil)
  rw [Insert.rowsText, hsome, if_neg (by simp)]
  refine attempt_bind_eq_ok.mpr ⟨_, htuples, ?_⟩
  have hword : " VALUES (" = " " ++ Keyword.values.text ++ " " ++ "(" := rfl
  rw [String.intercalate_singleton, hword]
  simp only [columnsText, String.append_assoc]
  rfl

theorem eq_insertText {entity : Entity} (h : (schema.insertOf entity).render d = .ok sql) :
    sql = d.spelling.insertText d schema (schema.insertedValues entity) := by
  obtain ⟨modifiers, hmodifiers, h⟩ := attempt_bind_eq_ok.mp h
  obtain ⟨rows, hrows, h⟩ := attempt_bind_eq_ok.mp h
  obtain ⟨returning, hreturning, h⟩ := attempt_bind_eq_ok.mp h
  obtain rfl : modifiers = "" := (Except.ok.inj hmodifiers).symm
  obtain rfl : returning = "" := (Except.ok.inj hreturning).symm
  have hhead : Keyword.insert.text ++ "" ++ " " ++ Keyword.into.text ++ " " = "INSERT INTO " := rfl
  rw [← Except.ok.inj h, hhead, String.append_empty, insertText]
  split
  next hempty =>
      have hword : " DEFAULT VALUES" = " " ++ Keyword.defaultValues.text := rfl
      rw [Insert.rowsText, if_pos hempty] at hrows
      cases hrows
      rw [hword, String.append_assoc]
  next hsome =>
      rw [rowsText_single (nodup_insertedValues schema entity) (by simpa using hsome)] at hrows
      cases hrows
      simp only [String.append_assoc]

/-! ## Tables -/

theorem exists_columnText {p : Platform} {field : Field} {text : String}
    (h : p.columnText field = .ok text) :
    ∃ rest, text = p.dialect.quoteIdentifier field.name ++ " " ++ rest := by
  rw [Platform.columnText] at h
  split at h
  next => cases h
  next type _ =>
      split at h
      next => cases h
      next =>
          rw [← Except.ok.inj h]
          simp only [String.append_assoc]
          exact ⟨_, rfl⟩

theorem ruleText_spelling (d : Dialect) (rule : Rule) : d.spelling.ruleText d rule = d.ruleText rule := by
  cases rule with
  | primaryKey columns => rfl
  | unique columns => rfl
  | foreignKey columns table references onDelete onUpdate =>
      have hkey : "FOREIGN KEY " = Keyword.foreignKey.text ++ " " := rfl
      have hword : " REFERENCES " = " " ++ Keyword.references.text ++ " " := rfl
      rw [ruleText, Dialect.ruleText, hkey, hword]
      simp only [String.append_assoc]
      rfl
  | check condition => rfl

theorem constraintText_spelling (d : Dialect) (constraint : Constraint) :
    d.spelling.constraintText d constraint = d.constraintText constraint := by
  rw [constraintText, ruleText_spelling]
  rfl

theorem keyTexts_spelling (d : Dialect) (schema : Schema) :
    d.spelling.keyTexts schema = schema.keyTexts d := by
  simp only [keyTexts, Schema.keyTexts, schema.hasField_iff]
  rfl

theorem spelledTable_of_render {p : Platform} (h : schema.createTable.render p = .ok sql) :
    p.dialect.spelling.SpelledTable p schema sql := by
  obtain ⟨-, columns, rules, hcolumns, hrules, rfl⟩ := Schema.render_createTable.mp h
  refine ⟨columns, rules, hcolumns.imp fun _ _ htext => ⟨htext, exists_columnText htext⟩, ?_, ?_⟩
  · simpa only [constraintText_spelling] using hrules
  · rw [keyTexts_spelling]

end Spelling

end RecordMapper
