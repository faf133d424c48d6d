import RecordMapper.Number.Reading
import RecordMapper.Row
import RecordMapper.Schema
import RecordMapper.Schema.ArrayLiteral

/-!
# Casting stored values

Each type has one form of value in memory.  Casting brings a stored value into the form of its
field, or refuses it.
-/

namespace RecordMapper

def readBool (text : String) : Option Bool :=
  if ["1", "t", "true", "TRUE"].contains text then some true
  else if ["0", "f", "false", "FALSE"].contains text then some false
  else none

def utf8Bytes (text : String) : List UInt8 :=
  text.toUTF8.data.toList

def ofUtf8Bytes? (bytes : List UInt8) : Option String :=
  String.fromUTF8? ⟨bytes.toArray⟩

namespace LogicalType

/-- A value as an integer.  A whole number beyond 64 bits becomes the largest or smallest one. -/
def castInteger? : Value → Option Value
  | .integer n => some (.integer n)
  | .bool b => some (.integer (if b then 1 else 0))
  | .float x => x.whole?.map fun n => .integer (Int64.ofIntClamp n)
  | .text s => (readInt64 (Text.trimChars s.toList)).map .integer
  | _ => none

def castFloat? : Value → Option Value
  | .float x => some (.float x)
  | .integer n => some (.float (Binary64.ofInt n.toInt))
  | .text s => (Binary64.read (Text.trimChars s.toList)).map .float
  | _ => none

def castBool? : Value → Option Value
  | .bool b => some (.bool b)
  | .integer n => some (.bool (n != 0))
  | .text s => (readBool (Text.trim s)).map .bool
  | _ => none

def castBinary? : Value → Option Value
  | .binary bytes => some (.binary bytes)
  | .text s => some (.binary (utf8Bytes s))
  | _ => none

def castText? : Value → Option Value
  | .text s => some (.text s)
  | .binary bytes => (ofUtf8Bytes? bytes).map .text
  | .integer n => some (.text (Value.display (.integer n)))
  | .float x => some (.text (Value.display (.float x)))
  | .bool b => some (.text (Value.display (.bool b)))
  | _ => none

def cast? : LogicalType → Value → Option Value
  | id | serial | integer => castInteger?
  | float | decimal => castFloat?
  | boolean => castBool?
  | binary => castBinary?
  | _ => castText?

end LogicalType

namespace Schema

def castError (s : Schema) (field : Field) (value : Value) : Error :=
  .castRefused value.display field.typeName s.model field.name

/-- A single value in the form of a field's type; an extension type takes every value. -/
def castScalar (s : Schema) (field : Field) (value : Value) : Attempt Value :=
  match field.logicalType? with
  | none => .ok value
  | some type =>
      match type.cast? value with
      | some cast => .ok cast
      | none => .error (s.castError field value)

def castItem (s : Schema) (field : Field) (item : Value) : Attempt Value :=
  if item.isNull then .ok .null else s.castScalar field item

def itemsOf (s : Schema) (field : Field) : Value → Attempt (List Value)
  | .array items => .ok items
  | .text text => .ok (ArrayLiteral.read text)
  | value => .error (s.castError field value)

/-- A value in the form of a field.  Null stays null, and an unknown field takes every value. -/
def cast (s : Schema) (name : String) (value : Value) : Attempt Value :=
  match s.field? name with
  | none => .ok value
  | some field =>
      if value.isNull then .ok value
      else if field.isArray then do
        let items ← s.itemsOf field value
        return .array (← items.mapM (s.castItem field))
      else s.castScalar field value

def castPairs (s : Schema) : List (String × Value) → Attempt (List (String × Value))
  | [] => .ok []
  | (name, value) :: rest => do
      let cast ← s.cast name value
      let others ← s.castPairs rest
      return (name, cast) :: others

def castRow (s : Schema) (row : Row) : Attempt Row := do
  return Row.ofPairs (← s.castPairs row.pairs)

end Schema

end RecordMapper
