import RecordMapper.Condition.FieldRef
import RecordMapper.Error
import RecordMapper.Value

/-!
# Conditions and selections

A condition is a tree of operators over values, fields, verbatim SQL and nested selections.  A
selection in turn holds conditions, so the two are defined together with the parts of a selection.
-/

namespace RecordMapper

inductive JoinKind
  | inner
  | left
  | right
  deriving DecidableEq

inductive Direction
  | ascending
  | descending
  deriving DecidableEq

structure Modifiers where
  contains : Modifier → Bool

mutual

/-- A condition, or any other expression. -/
inductive Condition
  | value (v : Value)
  | field (ref : FieldRef)
  | node (op : Operator) (operands : List Condition)
  | raw (sql : String)
  | subquery (select : Select)

inductive Column
  | field (ref : FieldRef) (label? : Option String)
  | expr (tree : Condition) (label? : Option String)
  | subquery (select : Select) (label : String)

inductive Source
  | table (name : String) (label? : Option String)
  | subquery (select : Select) (label : String)

structure Join where
  kind : JoinKind
  source : Source
  on : Condition

structure Order where
  expr : Condition
  direction : Direction

structure Select where
  distinct : Bool
  modifiers : Modifiers
  columns : List Column
  sources : List Source
  joins : List Join
  filter : Condition
  group : List Column
  having : Condition
  order : List Order
  limit : Option UInt64
  offset : Option UInt64
  forUpdate : Bool

end

namespace Modifiers

def none : Modifiers :=
  ⟨fun _ => false⟩

def insert (set : Modifiers) (modifier : Modifier) : Modifiers :=
  ⟨fun other => other == modifier || set.contains other⟩

def toList (set : Modifiers) : List Modifier :=
  Modifier.all.filter set.contains

end Modifiers

namespace Condition

def always : Condition :=
  .node .and []

instance : Inhabited Condition := ⟨always⟩

mutual

/-- Whether a condition says nothing: a conjunction or disjunction of conditions of this kind. -/
def isEmpty : Condition → Bool
  | .node op operands => op.isConjunction && allEmpty operands
  | _ => false

def allEmpty : List Condition → Bool
  | [] => true
  | operand :: rest => isEmpty operand && allEmpty rest

end

/-- The conditions that a condition joins by `AND`. -/
def conjuncts : Condition → List Condition
  | .node .and operands => operands
  | condition => [condition]

/-- Both conditions in one flat conjunction.  A condition that says nothing is left out. -/
def both (first second : Condition) : Condition :=
  if first.isEmpty then second
  else if second.isEmpty then first
  else .node .and (first.conjuncts ++ second.conjuncts)

mutual

/-- The condition with every field that names no table moved to a table.  Nested selections keep
their own fields. -/
def anchor (table : String) : Condition → Condition
  | .field ref => .field (ref.inTable table)
  | .node op operands => .node op (anchorAll table operands)
  | condition => condition

def anchorAll (table : String) : List Condition → List Condition
  | [] => []
  | operand :: rest => anchor table operand :: anchorAll table rest

end

/-- A node whose number of operands is checked. -/
def checked (op : Operator) (operands : List Condition) : Attempt Condition :=
  if op.arity.accepts operands.length then .ok (.node op operands)
  else .error (.operandCount op operands.length)

/-! ## Building conditions -/

def ofPath (path : String) : Condition :=
  .field (FieldRef.ofPath path)

def eq (left right : Condition) : Condition := .node .eq [left, right]
def ne (left right : Condition) : Condition := .node .ne [left, right]
def gt (left right : Condition) : Condition := .node .gt [left, right]
def ge (left right : Condition) : Condition := .node .ge [left, right]
def lt (left right : Condition) : Condition := .node .lt [left, right]
def le (left right : Condition) : Condition := .node .le [left, right]
def like (left pattern : Condition) : Condition := .node .like [left, pattern]
def add (left right : Condition) : Condition := .node .add [left, right]
def sub (left right : Condition) : Condition := .node .sub [left, right]
def mul (left right : Condition) : Condition := .node .mul [left, right]
def div (left right : Condition) : Condition := .node .div [left, right]
def isNull (left : Condition) : Condition := .node .is [left, .value .null]
def isNotNull (left : Condition) : Condition := .node .isNot [left, .value .null]
def and (operands : List Condition) : Condition := .node .and operands
def or (operands : List Condition) : Condition := .node .or operands
def not (operand : Condition) : Condition := .node .not [operand]

/-- Lies between two values, the values included. -/
def between (left : Condition) (low high : Value) : Condition :=
  .node .between [left, .value (.array [low, high])]

def notBetween (left : Condition) (low high : Value) : Condition :=
  .node .notBetween [left, .value (.array [low, high])]

def inList (left : Condition) (values : List Value) : Condition :=
  .node .in [left, .value (.array values)]

def notInList (left : Condition) (values : List Value) : Condition :=
  .node .notIn [left, .value (.array values)]

def inSelect (left : Condition) (select : Select) : Condition :=
  .node .in [left, .subquery select]

def any (source : Condition) : Condition := .node .any [source]

def rowExists (select : Select) : Condition := .node .exists [.subquery select]
def noRowExists (select : Select) : Condition := .node .notExists [.subquery select]

def call (name : String) (arguments : List Condition) : Condition :=
  .node (.function name.toUpper) arguments

def named (expr : Condition) (name : String) : Condition :=
  .node .as [expr, ofPath name]

end Condition

namespace Column

def ofPath (path : String) : Column :=
  .field (FieldRef.ofPath path) none

def star : Column :=
  ofPath "*"

def named (name : String) : Column → Column
  | .field ref _ => .field ref (some name)
  | .expr tree _ => .expr tree (some name)
  | .subquery select _ => .subquery select name

/-- The column of a table, if it is a field that names none. -/
def inTable (table : String) : Column → Column
  | .field ref label? => .field (ref.inTable table) label?
  | column => column

def fieldName? : Column → Option String
  | .field ref _ => some ref.name
  | _ => none

end Column

end RecordMapper
