import RecordMapper.Dialect.TypeTable
import RecordMapper.Statement.Rendering

/-!
# Tables

Columns, constraints, and the statements that create and drop tables.
-/

namespace RecordMapper

/-- What becomes of a row when the row that it refers to goes or changes its key. -/
inductive ReferentialAction
  | noAction
  | restrict
  | cascade
  | setNull
  | setDefault
  deriving DecidableEq

namespace ReferentialAction

def text : ReferentialAction → String
  | noAction => "NO ACTION"
  | restrict => "RESTRICT"
  | cascade => "CASCADE"
  | setNull => "SET NULL"
  | setDefault => "SET DEFAULT"

def all : List ReferentialAction :=
  [noAction, restrict, cascade, setNull, setDefault]

end ReferentialAction

inductive Rule
  | primaryKey (columns : List String)
  | unique (columns : List String)
  | foreignKey (columns : List String) (table : String) (references : List String)
      (onDelete onUpdate : Option ReferentialAction)
  | check (condition : Condition)

structure Constraint where
  name : Option String
  rule : Rule

namespace Constraint

def primaryKey (columns : List String) : Constraint :=
  ⟨none, .primaryKey columns⟩

def unique (columns : List String) : Constraint :=
  ⟨none, .unique columns⟩

def foreignKey (columns : List String) (table : String) (references : List String) : Constraint :=
  ⟨none, .foreignKey columns table references none none⟩

def check (condition : Condition) : Constraint :=
  ⟨none, .check condition⟩

def named (constraint : Constraint) (name : String) : Constraint :=
  { constraint with name := some name }

/-- Sets what happens when the other row goes; only a foreign key refers to one. -/
def onDelete (constraint : Constraint) (action : ReferentialAction) : Constraint :=
  match constraint.rule with
  | .foreignKey columns table references _ onUpdate =>
      { constraint with rule := .foreignKey columns table references (some action) onUpdate }
  | _ => constraint

/-- Sets what happens when the key of the other row changes; only a foreign key refers to one. -/
def onUpdate (constraint : Constraint) (action : ReferentialAction) : Constraint :=
  match constraint.rule with
  | .foreignKey columns table references onDelete _ =>
      { constraint with rule := .foreignKey columns table references onDelete (some action) }
  | _ => constraint

end Constraint

namespace Dialect

def columnNames (d : Dialect) (columns : List String) : String :=
  parenthesize (", ".intercalate (columns.map d.quoteIdentifier))

def actionText (keyword : Keyword) : Option ReferentialAction → String
  | some action => " " ++ keyword.text ++ " " ++ action.text
  | none => ""

def ruleText (d : Dialect) : Rule → Attempt String
  | .primaryKey columns => .ok (Keyword.primaryKey.text ++ " " ++ d.columnNames columns)
  | .unique columns => .ok (Keyword.unique.text ++ " " ++ d.columnNames columns)
  | .foreignKey columns table references onDelete onUpdate =>
      .ok (Keyword.foreignKey.text ++ " " ++ d.columnNames columns ++ " " ++
        Keyword.references.text ++ " " ++ d.quotePath table ++ " " ++ d.columnNames references ++
        actionText .onDelete onDelete ++ actionText .onUpdate onUpdate)
  | .check condition => do
      return Keyword.check.text ++ " " ++ parenthesize (← condition.render d)

def constraintText (d : Dialect) (constraint : Constraint) : Attempt String := do
  let rule ← d.ruleText constraint.rule
  match constraint.name with
  | some name => return Keyword.constraint.text ++ " " ++ d.quoteIdentifier name ++ " " ++ rule
  | none => return rule

end Dialect

/-- Whether a text is the name of the present moment, in capital or small ASCII letters. -/
def namesPresent (text : String) : Bool :=
  ["CURRENT_TIMESTAMP", "CURRENT_DATE", "CURRENT_TIME", "NOW()", "LOCALTIMESTAMP"].contains
    text.toUpper

namespace Dialect

/-- The default value of a column.  The present moment stays without quotes in a temporal column,
and an array is a text in quotes. -/
def defaultText (d : Dialect) (field : Field) (value : Value) : String :=
  let temporal := field.logicalType?.any LogicalType.isTemporal
  match value with
  | .text s => if temporal && namesPresent s then s else d.literal value
  | .array items => d.quoteText (d.arrayLiteral items)
  | _ => d.literal value

/-- The length and precision of a column in parentheses; without a length neither is written. -/
def sizeText : Option UInt32 → Option UInt32 → String
  | some length, some precision =>
      "(" ++ toString length.toNat ++ "," ++ toString precision.toNat ++ ")"
  | some length, none => "(" ++ toString length.toNat ++ ")"
  | none, _ => ""

end Dialect

namespace Platform

/-- The native type of a field with its length and precision.  A native type of the field's own
takes none of the sizes in the type table. -/
def columnType (type : NativeType) (field : Field) : String :=
  match field.nativeType with
  | some native => native ++ Dialect.sizeText field.length field.precision
  | none =>
      type.name ++
        Dialect.sizeText (field.length <|> type.length) (field.precision <|> type.precision)

def columnText (p : Platform) (field : Field) : Attempt String :=
  match p.types.find? field.typeName with
  | none => .error (.typeUnknown field.typeName)
  | some type =>
      if field.isArray && !p.dialect.supportsArrays then
        .error (.arrayColumn field.name p.dialect)
      else
        .ok (p.dialect.quoteIdentifier field.name ++ " " ++ columnType type field ++
          (if field.isArray then "[]" else "") ++
          (match p.dialect.autoIncrement? with
            | some word => if type.serial then " " ++ word else ""
            | none => "") ++
          (if field.nullable then "" else " " ++ Keyword.notNull.text) ++
          (match field.default with
            | some value =>
                " " ++ Keyword.default.text ++ " " ++ p.dialect.defaultText field value
            | none => ""))

end Platform

/-! ## Creating tables -/

structure CreateTable where
  table : Option String
  ifNotExists : Bool
  columns : List Field
  constraints : List Constraint

namespace CreateTable

def empty : CreateTable :=
  { table := none, ifNotExists := false, columns := [], constraints := [] }

def setTable (s : CreateTable) (table : String) : CreateTable :=
  { s with table := some table }

def setIfNotExists (s : CreateTable) (ifNotExists : Bool) : CreateTable :=
  { s with ifNotExists }

def addColumns (s : CreateTable) (columns : List Field) : CreateTable :=
  { s with columns := s.columns ++ columns }

def addConstraint (s : CreateTable) (constraint : Constraint) : CreateTable :=
  { s with constraints := s.constraints ++ [constraint] }

def render (p : Platform) (s : CreateTable) : Attempt String :=
  match s.table with
  | none => .error (.clauseMissing "CREATE TABLE" Keyword.table.text)
  | some table =>
      if s.columns.isEmpty then .error (.columnsMissing table)
      else do
        let columnsSql ← s.columns.mapM p.columnText
        let constraintsSql ← s.constraints.mapM p.dialect.constraintText
        return Keyword.create.text ++ " " ++ Keyword.table.text ++
          (if s.ifNotExists then " " ++ Keyword.ifNotExists.text else "") ++ " " ++
          p.dialect.quotePath table ++ " " ++
          parenthesize (", ".intercalate (columnsSql ++ constraintsSql))

end CreateTable

/-! ## Dropping tables -/

inductive DropBehavior
  | cascade
  | restrict
  deriving DecidableEq

namespace DropBehavior

def keyword : DropBehavior → Keyword
  | cascade => .cascade
  | restrict => .restrict

end DropBehavior

structure DropTable where
  tables : List String
  ifExists : Bool
  behavior : Option DropBehavior

namespace DropTable

def empty : DropTable :=
  { tables := [], ifExists := false, behavior := none }

def addTable (s : DropTable) (table : String) : DropTable :=
  { s with tables := s.tables ++ [table] }

def setIfExists (s : DropTable) (ifExists : Bool) : DropTable :=
  { s with ifExists }

def setBehavior (s : DropTable) (behavior : DropBehavior) : DropTable :=
  { s with behavior := some behavior }

def render (d : Dialect) (s : DropTable) : Attempt String :=
  if s.tables.isEmpty then .error (.clauseMissing "DROP TABLE" Keyword.table.text)
  else
    .ok (Keyword.drop.text ++ " " ++ Keyword.table.text ++
      (if s.ifExists then " " ++ Keyword.ifExists.text else "") ++ " " ++
      ", ".intercalate (s.tables.map d.quotePath) ++
      (match s.behavior with
        | some behavior => " " ++ behavior.keyword.text
        | none => ""))

end DropTable

/-! ## Transactions -/

inductive TransactionMode
  | deferred
  | immediate
  | exclusive
  deriving DecidableEq

namespace TransactionMode

instance : Inhabited TransactionMode := ⟨deferred⟩

def beginText : TransactionMode → String
  | deferred => "BEGIN DEFERRED"
  | immediate => "BEGIN IMMEDIATE"
  | exclusive => "BEGIN EXCLUSIVE"

end TransactionMode

end RecordMapper
