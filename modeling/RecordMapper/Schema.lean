import RecordMapper.Naming
import RecordMapper.Statement.Table

/-!
# Schemas

A schema describes a model: its fields, its table, its key, its constraints and its relations.  A
relation either ties two models by a pair of keys or leads through the relation of another model.
-/

namespace RecordMapper

/-- How two models are tied by keys. -/
inductive TieKind
  | belongsTo
  | hasOne
  | hasMany
  deriving DecidableEq

/-- How the rows of a pivot are brought in line with its records. -/
inductive PivotMode
  /-- Rows that fit are kept, others are deleted, and what is missing is inserted. -/
  | diff
  /-- All rows of the owner are deleted and all records are inserted. -/
  | flush
  deriving DecidableEq

structure TieOptions where
  target : String
  /-- The field of the owner and the field of the target; naming rules give them when left open. -/
  keys : Option (String × String) := none
  /-- The fields that are fetched; all of them when there are none. -/
  fields : List String := []
  /-- What fetched rows must meet besides the keys. -/
  constraints : Condition := .always
  correlate : Option String := none

/-- The options of a relation that leads through a pivot. -/
structure RouteOptions where
  /-- The relation of the owner to the pivot. -/
  through : String
  /-- The relation of the pivot to the far model. -/
  far : String
  mode : PivotMode := .diff

inductive RelationOptions
  | tie (kind : TieKind) (options : TieOptions)
  | route (options : RouteOptions)

structure RelationDecl where
  name : String
  options : RelationOptions

namespace TieOptions

def addConstraint (options : TieOptions) (condition : Condition) : TieOptions :=
  { options with constraints := options.constraints.both condition }

end TieOptions

namespace RouteOptions

/-- Both relations of a route must be named. -/
def validate (options : RouteOptions) (relation : String) : Attempt Unit :=
  if options.through.isEmpty then .error (.relationOptionMissing relation "through")
  else if options.far.isEmpty then .error (.relationOptionMissing relation "using")
  else .ok ()

end RouteOptions

structure Schema where
  model : String
  table : Option String
  key : Option String
  fields : List Field
  constraints : List Constraint
  relations : List RelationDecl

namespace Schema

def named (model : String) : Schema :=
  { model, table := none, key := none, fields := [], constraints := [], relations := [] }

def setTable (s : Schema) (table : String) : Schema :=
  { s with table := some table }

def setKey (s : Schema) (key : String) : Schema :=
  { s with key := some key }

/-- The fields with one more.  A field of the same name is replaced where it stands. -/
def insertField (field : Field) : List Field → List Field
  | [] => [field]
  | other :: rest =>
      if other.name = field.name then field :: rest else other :: insertField field rest

def addField (s : Schema) (field : Field) : Schema :=
  { s with fields := insertField field s.fields }

def addConstraint (s : Schema) (constraint : Constraint) : Schema :=
  { s with constraints := s.constraints ++ [constraint] }

/-- Declares a relation.  One of the same name goes, and the new one comes last. -/
def addRelation (s : Schema) (decl : RelationDecl) : Schema :=
  { s with relations := s.relations.filter (fun other => other.name ≠ decl.name) ++ [decl] }

def addTie (s : Schema) (kind : TieKind) (name : String) (options : TieOptions) : Schema :=
  s.addRelation ⟨name, .tie kind options⟩

def addRoute (s : Schema) (name : String) (options : RouteOptions) : Attempt Schema := do
  options.validate name
  return s.addRelation ⟨name, .route options⟩

/-! ## Reading a schema -/

/-- The table of the model; a schema that leaves it open uses the name of the model. -/
def tableName (s : Schema) : String :=
  s.table.getD s.model

def keyName (s : Schema) : String :=
  s.key.getD "id"

def fieldNames (s : Schema) : List String :=
  s.fields.map Field.name

def field? (s : Schema) (name : String) : Option Field :=
  s.fields.find? fun field => field.name == name

def hasField (s : Schema) (name : String) : Bool :=
  (s.field? name).isSome

def relation? (s : Schema) (name : String) : Option RelationDecl :=
  s.relations.find? fun decl => decl.name == name

/-! ## Completing a schema -/

def validateRelation (model : String) (decl : RelationDecl) : Attempt Unit :=
  if decl.name.isEmpty then .error (.relationUnnamed model)
  else
    match decl.options with
    | .route options => options.validate decl.name
    | .tie _ options =>
        if options.target.isEmpty then .error (.relationOptionMissing decl.name "to") else .ok ()

/-- The schema with its table and its key named, after a check of its declarations. -/
def complete (naming : Naming) (s : Schema) : Attempt Schema := do
  if s.model.isEmpty then throw .modelUnnamed
  let table ← match s.table with
    | some table => pure table
    | none => naming.source s.model
  let key ← match s.key with
    | some key => pure key
    | none => naming.primaryKey s.model
  s.relations.forM (validateRelation s.model)
  return { s with table := some table, key := some key }

/-! ## Tables -/

/-- The creation of the table.  The key is its primary key when it is a field. -/
def createTable (s : Schema) : CreateTable :=
  { table := some s.tableName
    ifNotExists := false
    columns := s.fields
    constraints :=
      (if s.hasField s.keyName then [Constraint.primaryKey [s.keyName]] else []) ++
        s.constraints }

def dropTable (s : Schema) : DropTable :=
  { tables := [s.tableName], ifExists := true, behavior := none }

end Schema

end RecordMapper
