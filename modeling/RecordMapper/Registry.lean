import RecordMapper.Relation

/-!
# Registries

A registry holds the schemas of all models, each under its own name, and resolves the relations that
they declare.
-/

namespace RecordMapper

/-- Schemas in the order in which they were registered, and the rules for open names. -/
structure Registry where
  naming : Naming
  schemas : List Schema

namespace Registry

def empty (naming : Naming) : Registry :=
  ⟨naming, []⟩

def find? (registry : Registry) (model : String) : Option Schema :=
  registry.schemas.find? fun schema => schema.model == model

def contains (registry : Registry) (model : String) : Bool :=
  (registry.find? model).isSome

/-- The names of the models in alphabetical order. -/
def models (registry : Registry) : List String :=
  (registry.schemas.map Schema.model).mergeSort

def schema (registry : Registry) (model : String) : Attempt Schema :=
  match registry.find? model with
  | some schema => .ok schema
  | none => .error (.modelUnknown model)

def insert (registry : Registry) (schema : Schema) : Attempt Registry := do
  let complete ← schema.complete registry.naming
  if registry.contains complete.model then throw (.modelRegistered complete.model)
  return { registry with schemas := registry.schemas ++ [complete] }

def insertAll (registry : Registry) (schemas : List Schema) : Attempt Registry :=
  schemas.foldlM insert registry

/-! ## Resolving relations -/

/-- The keys of a tie that leaves them open.  Whoever belongs to another holds its foreign key, and
the other its own key. -/
def defaultKeys (naming : Naming) (kind : TieKind) (owner target : Schema) :
    Attempt (String × String) := do
  match kind with
  | .belongsTo => return (← naming.foreignKey target.model, target.keyName)
  | .hasOne | .hasMany => return (owner.keyName, ← naming.foreignKey owner.model)

def resolveTie (registry : Registry) (owner : Schema) (name correlate : String) (kind : TieKind)
    (options : TieOptions) : Attempt Tie := do
  let target ← registry.schema options.target
  let keys ← match options.keys with
    | some keys => pure keys
    | none => defaultKeys registry.naming kind owner target
  return { kind, source := owner.model, target := target.model, name, correlate
           sourceKey := keys.1, targetKey := keys.2
           fields := options.fields, constraints := options.constraints }

/-- The relation to a pivot must be a tie whose target holds the key. -/
def pivotTie (name route : String) : Relation → Attempt Tie
  | .tie tie =>
      if tie.kind = .belongsTo then .error (.routeNotToPivot route name) else .ok tie
  | .through _ _ _ _ _ => .error (.routeNotToPivot route name)

/-- What a declaration calls the source on the side of the target. -/
def correlateOf (naming : Naming) (model : String) : RelationOptions → Attempt String
  | .tie _ { correlate := some correlate, .. } => .ok correlate
  | _ => naming.fieldName model

/-- A relation of a model, over at most as many declarations one within the other as `fuel`. -/
def resolve (registry : Registry) : Nat → String → String → Attempt Relation
  | 0, model, name => .error (.routeCircular model name)
  | fuel + 1, model, name => do
      let owner ← registry.schema model
      let decl ← match owner.relation? name with
        | some decl => pure decl
        | none => throw (.relationUnknown model name)
      let correlate ← correlateOf registry.naming model decl.options
      match decl.options with
      | .tie kind options =>
          return .tie (← registry.resolveTie owner name correlate kind options)
      | .route options =>
          options.validate name
          let route ← registry.resolve fuel model options.through
          let route ← pivotTie name options.through route
          let far ← registry.resolve fuel route.target options.far
          return .through name correlate route far options.mode

/-- How many relations the schemas declare.  A route that is not circular meets each of them once. -/
def declaredRelations (registry : Registry) : Nat :=
  (registry.schemas.map fun schema => schema.relations.length).foldr (· + ·) 0

/-- A relation that the schema of a model declares, with all its names resolved. -/
def relation (registry : Registry) (model name : String) : Attempt Relation :=
  registry.resolve (registry.declaredRelations + 1) model name

end Registry

end RecordMapper
