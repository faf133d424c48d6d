import RecordMapper.Condition.Operator
import RecordMapper.Dialect
import RecordMapper.Json

/-!
# Errors

What can go wrong, by cause.  Each cause belongs to one of seven kinds, and the wording of all
messages stands in `Error.detail`.
-/

namespace RecordMapper

inductive ErrorKind
  /-- A model or a relation is declared in a way that cannot work. -/
  | configuration
  /-- A statement cannot be written. -/
  | compile
  /-- A key that ties records together is missing. -/
  | integrity
  /-- A naming rule is unknown. -/
  | convention
  /-- A relation is used before it was loaded. -/
  | notLoaded
  /-- A stored value does not fit its field. -/
  | mapping
  /-- The connection reported a failure. -/
  | backend
  deriving DecidableEq

inductive Error
  | modelUnnamed
  | relationUnnamed (model : String)
  | relationOptionMissing (relation option : String)
  | modelRegistered (model : String)
  | modelUnknown (model : String)
  | relationUnknown (model relation : String)
  | routeNotToPivot (route relation : String)
  | routeCircular (model relation : String)
  | relationNotThrough (model relation : String)
  | relationShape (model relation expected : String)
  | operandCount (op : Operator) (count : Nat)
  | boundsNotPair (op : Operator)
  | starRefused
  | conditionShape (input : Json)
  | nameOperand (input : Json)
  | operatorUnknown (symbol : String)
  | objectLiteral (input : Json)
  | columnShape (input : Json)
  | columnShapeUnder (name : String) (input : Json)
  | typeUnknown (name : String)
  | arrayColumn (field : String) (dialect : Dialect)
  | clauseMissing (statement clause : String)
  | columnsMissing (table : String)
  | defaultRows
  | rowsDiffer
  | rowLacksColumn (column : String)
  | returningUnsupported (dialect : Dialect)
  | modifierUnsupported (modifier : Modifier) (dialect : Dialect)
  | keyMissing (key model relation : String)
  | storedKeyMissing (key model : String)
  | ruleUnknown (rule : String)
  | relationNotLoaded (model relation : String)
  | castRefused (value typeName model field : String)
  | backend (message : String)

namespace ErrorKind

def name : ErrorKind → String
  | configuration => "Configuration"
  | compile => "Compile"
  | integrity => "Integrity"
  | convention => "Convention"
  | notLoaded => "NotLoaded"
  | mapping => "Mapping"
  | backend => "Backend"

def heading : ErrorKind → String
  | configuration => "Configuration error: "
  | compile => "Compile error: "
  | integrity => "Integrity error: "
  | convention => "Convention error: "
  | notLoaded => "Relation not loaded: "
  | mapping => "Mapping error: "
  | backend => "Backend error: "

end ErrorKind

namespace Error

def kind : Error → ErrorKind
  | modelUnnamed | relationUnnamed _ | relationOptionMissing _ _ | modelRegistered _
  | modelUnknown _ | relationUnknown _ _ | routeNotToPivot _ _ | routeCircular _ _
  | relationNotThrough _ _ | relationShape _ _ _ => .configuration
  | keyMissing _ _ _ | storedKeyMissing _ _ => .integrity
  | ruleUnknown _ => .convention
  | relationNotLoaded _ _ => .notLoaded
  | castRefused _ _ _ _ => .mapping
  | backend _ => .backend
  | _ => .compile

def detail : Error → String
  | modelUnnamed => "A schema requires a model name."
  | relationUnnamed model => s!"A relationship on `{model}` requires a name."
  | relationOptionMissing relation option =>
      s!"The relationship `{relation}` is missing its `{option}` option."
  | modelRegistered model => s!"The model `{model}` is already registered."
  | modelUnknown model => s!"Unknown model `{model}`."
  | relationUnknown model relation => s!"Relationship `{relation}` is not defined on `{model}`."
  | routeNotToPivot route relation =>
      s!"The `through` relation `{route}` of `{relation}` must lead to the pivot model."
  | routeCircular model relation =>
      s!"The relationship `{relation}` on `{model}` is routed through itself."
  | relationNotThrough model relation =>
      s!"Relation `{relation}` on `{model}` is not a through relation."
  | relationShape model relation expected =>
      s!"Relation `{relation}` on `{model}` does not hold a {expected}."
  | operandCount op count =>
      s!"Operator `{op.symbol}` expects {op.arity.text} operands, got {count}."
  | boundsNotPair op => s!"Operator `{op.symbol}` expects a pair of bounds."
  | starRefused => "Star selection `*` is not allowed in this context."
  | conditionShape input => s!"Unsupported condition `{input.compact}`, expected a mapping."
  | nameOperand input => s!"Operator `:name` expects a string, got `{input.compact}`."
  | operatorUnknown symbol => s!"Unsupported operator `{symbol}`."
  | objectLiteral input => s!"Unsupported literal `{input.compact}`, objects are not values."
  | columnShape input => s!"Unsupported column shape `{input.compact}`."
  | columnShapeUnder name input =>
      s!"Unsupported column shape `{input.compact}` under `{name}`."
  | typeUnknown name => s!"Column type `{name}` does not exist."
  | arrayColumn field dialect =>
      s!"Array column `{field}` is not supported by the `{dialect.name}` dialect."
  | clauseMissing statement clause =>
      s!"Invalid `{statement}` statement, missing `{clause}` clause."
  | columnsMissing table => s!"Invalid `CREATE TABLE` statement, `{table}` has no columns."
  | defaultRows => "Invalid `INSERT` statement, `DEFAULT VALUES` takes a single row."
  | rowsDiffer => "Invalid `INSERT` statement, rows must share the same columns."
  | rowLacksColumn column => s!"Invalid `INSERT` statement, row is missing column `{column}`."
  | returningUnsupported dialect =>
      s!"`RETURNING` is not supported by the `{dialect.name}` dialect."
  | modifierUnsupported modifier dialect =>
      s!"Modifier `{modifier.text}` is not supported by the `{dialect.name}` dialect."
  | keyMissing key model relation =>
      s!"The `{key}` key is missing on `{model}` for the `{relation}` relationship."
  | storedKeyMissing key model => s!"The `{key}` key is missing on stored `{model}` entity."
  | ruleUnknown rule => s!"Convention for `{rule}` doesn't exists."
  | relationNotLoaded model relation =>
      s!"Relation `{relation}` on `{model}` has not been embedded."
  | castRefused value typeName model field =>
      s!"Cannot cast `{value}` to `{typeName}` for field `{model}.{field}`."
  | backend message => message

def message (error : Error) : String :=
  error.kind.heading ++ error.detail

end Error

/-- The result of a computation that may fail. -/
abbrev Attempt (α : Type) := Except Error α

end RecordMapper
