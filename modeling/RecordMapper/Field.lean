import RecordMapper.Value

/-!
# Fields

A field of a model names its type.  Thirteen type names are known everywhere; any other name is an
extension that a type table may know.
-/

namespace RecordMapper

inductive LogicalType
  | id
  | serial
  | string
  | text
  | integer
  | float
  | decimal
  | boolean
  | date
  | time
  | datetime
  | binary
  | uuid
  deriving DecidableEq

namespace LogicalType

def all : List LogicalType :=
  [id, serial, string, text, integer, float, decimal, boolean, date, time, datetime, binary, uuid]

def name : LogicalType → String
  | id => "id"
  | serial => "serial"
  | string => "string"
  | text => "text"
  | integer => "integer"
  | float => "float"
  | decimal => "decimal"
  | boolean => "boolean"
  | date => "date"
  | time => "time"
  | datetime => "datetime"
  | binary => "binary"
  | uuid => "uuid"

def ofName? (name : String) : Option LogicalType :=
  all.find? fun type => type.name == name

def isIntegral : LogicalType → Bool
  | id | serial | integer => true
  | _ => false

def isTemporal : LogicalType → Bool
  | date | time | datetime => true
  | _ => false

theorem ofName?_name (type : LogicalType) : ofName? type.name = some type := by
  cases type <;> decide

end LogicalType

/-- The definition of a field.  A field admits null unless told otherwise. -/
structure Field where
  name : String
  typeName : String
  length : Option UInt32 := none
  precision : Option UInt32 := none
  nullable : Bool := true
  default : Option Value := none
  isArray : Bool := false
  /-- A native type that stands in place of the one in the type table. -/
  nativeType : Option String := none

structure FieldShape where
  typeName : String
  length : Option UInt32
  precision : Option UInt32
  nullable : Bool
  default : Option Value
  isArray : Bool

namespace Field

def logicalType? (field : Field) : Option LogicalType :=
  LogicalType.ofName? field.typeName

def shape (field : Field) : FieldShape :=
  { typeName := field.typeName
    length := field.length
    precision := field.precision
    nullable := field.nullable
    default := field.default
    isArray := field.isArray }

end Field

end RecordMapper
