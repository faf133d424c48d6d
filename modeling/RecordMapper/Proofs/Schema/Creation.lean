import RecordMapper.Proofs.Attempt
import RecordMapper.Schema

/-!
# The creation of a table

`render_createTable` gives the whole statement that creates the table of a schema, and `Creates` says when
there is one.
-/

namespace RecordMapper

namespace Schema

variable {s : Schema}

def keyTexts (s : Schema) (d : Dialect) : List String :=
  if s.keyName ∈ s.fieldNames then ["PRIMARY KEY (" ++ d.quoteIdentifier s.keyName ++ ")"] else []

/-- A statement with one column for each field in their order, then the primary key and the constraints. -/
def Creates (s : Schema) (p : Platform) (sql : String) : Prop :=
  s.fields ≠ [] ∧ ∃ columns rules,
    List.Forall₂ (fun field text => p.columnText field = .ok text) s.fields columns ∧
      List.Forall₂ (fun rule text => p.dialect.constraintText rule = .ok text) s.constraints rules ∧
        sql = "CREATE TABLE " ++ p.dialect.quotePath s.tableName ++ " (" ++
          ", ".intercalate (columns ++ s.keyTexts p.dialect ++ rules) ++ ")"

theorem hasField_iff (s : Schema) (name : String) : s.hasField name = true ↔ name ∈ s.fieldNames := by
  simp [hasField, field?, fieldNames]

theorem constraintText_primaryKey (d : Dialect) (column : String) :
    d.constraintText (.primaryKey [column]) =
      .ok ("PRIMARY KEY (" ++ d.quoteIdentifier column ++ ")") := by
  change Except.ok ("PRIMARY KEY" ++ " " ++ ("(" ++ ", ".intercalate [d.quoteIdentifier column] ++ ")")) = _
  rw [String.intercalate_singleton]
  simp only [String.append_assoc]
  rfl

theorem forall₂_constraints_createTable {d : Dialect} {texts : List String} :
    List.Forall₂ (fun rule text => d.constraintText rule = .ok text) s.createTable.constraints texts ↔
      ∃ rules, List.Forall₂ (fun rule text => d.constraintText rule = .ok text) s.constraints rules ∧
        texts = s.keyTexts d ++ rules := by
  by_cases hkey : s.keyName ∈ s.fieldNames
  · rw [createTable, if_pos ((hasField_iff s _).mpr hkey), keyTexts, if_pos hkey, List.singleton_append,
      List.forall₂_cons_left_iff]
    simp only [constraintText_primaryKey, Except.ok.injEq, List.singleton_append]
    constructor
    · rintro ⟨_, rules, rfl, hrules, rfl⟩
      exact ⟨rules, hrules, rfl⟩
    · rintro ⟨rules, hrules, rfl⟩
      exact ⟨_, rules, rfl, hrules, rfl⟩
  · simp [createTable, keyTexts, hasField_iff, hkey]

theorem render_createTable {p : Platform} {sql : String} :
    s.createTable.render p = .ok sql ↔ s.Creates p sql := by
  have htext : ∀ columns rules : List String,
      "CREATE" ++ " " ++ "TABLE" ++ "" ++ " " ++ p.dialect.quotePath s.tableName ++ " " ++
          ("(" ++ ", ".intercalate (columns ++ (s.keyTexts p.dialect ++ rules)) ++ ")") =
        "CREATE TABLE " ++ p.dialect.quotePath s.tableName ++ " (" ++
          ", ".intercalate (columns ++ s.keyTexts p.dialect ++ rules) ++ ")" := by
    intro columns rules
    simp only [String.append_empty, String.append_assoc, List.append_assoc]
    rfl
  change (if s.fields.isEmpty = true then _ else _) = Except.ok sql ↔ _
  by_cases hfields : s.fields = []
  · simp [Creates, hfields]
  · rw [if_neg (by simpa using hfields)]
    simp only [Creates, attempt_bind_eq_ok, attempt_mapM_eq_ok, forall₂_constraints_createTable]
    constructor
    · rintro ⟨columns, hcolumns, _, ⟨rules, hrules, rfl⟩, hsql⟩
      exact ⟨hfields, columns, rules, hcolumns, hrules, (Except.ok.inj hsql).symm.trans (htext _ _)⟩
    · rintro ⟨-, columns, rules, hcolumns, hrules, rfl⟩
      exact ⟨columns, hcolumns, _, ⟨rules, hrules, rfl⟩, congrArg Except.ok (htext _ _)⟩

end Schema

end RecordMapper
