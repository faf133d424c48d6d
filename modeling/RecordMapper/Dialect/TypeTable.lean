import RecordMapper.Dialect
import RecordMapper.Field

/-!
# Native types

Each dialect maps type names to the native types of its columns.  Entries can be added and
replaced.
-/

namespace RecordMapper

structure NativeType where
  name : String
  length : Option UInt32 := none
  precision : Option UInt32 := none
  /-- Whether columns of the type number their rows. -/
  serial : Bool := false
  deriving DecidableEq

/-- Native types by type name; of two entries with one name the first counts. -/
structure TypeTable where
  entries : List (String × NativeType)

namespace TypeTable

def find? (table : TypeTable) (name : String) : Option NativeType :=
  table.entries.lookup name

def insert (table : TypeTable) (name : String) (type : NativeType) : TypeTable :=
  ⟨(name, type) :: table.entries⟩

end TypeTable

namespace LogicalType

/-- The native type that stands for a type wherever a dialect has none of its own. -/
def commonNative : LogicalType → NativeType
  | id | integer => { name := "integer" }
  | serial => { name := "integer", serial := true }
  | string => { name := "varchar", length := some 255 }
  | text => { name := "text" }
  | float => { name := "float" }
  | decimal => { name := "decimal", length := some 10, precision := some 2 }
  | boolean => { name := "boolean" }
  | date => { name := "date" }
  | time => { name := "time" }
  | datetime => { name := "timestamp" }
  | binary => { name := "blob" }
  | uuid => { name := "char", length := some 36 }

def native : Dialect → LogicalType → NativeType
  | .sqlite, float | .postgresql, float => { name := "real" }
  | .sqlite, decimal | .postgresql, decimal =>
      { name := "numeric", length := some 10, precision := some 2 }
  | .postgresql, serial => { name := "serial", serial := true }
  | .postgresql, binary => { name := "bytea" }
  | .postgresql, uuid => { name := "uuid" }
  | .mysql, id | .mysql, integer => { name := "int" }
  | .mysql, serial => { name := "int", serial := true }
  | .mysql, datetime => { name := "datetime" }
  | _, type => type.commonNative

end LogicalType

structure Platform where
  dialect : Dialect
  types : TypeTable

namespace Dialect

def types (d : Dialect) : TypeTable :=
  ⟨LogicalType.all.map fun type => (type.name, type.native d)⟩

def platform (d : Dialect) : Platform :=
  ⟨d, d.types⟩

end Dialect

namespace Platform

def withType (p : Platform) (name : String) (type : NativeType) : Platform :=
  { p with types := p.types.insert name type }

end Platform

end RecordMapper
