import RecordMapper.Dialect
import RecordMapper.Field
import RecordMapper.Json.Access

/-!
# JSON forms

How values, fields and names are written as JSON and read back.  A value has no tag: the reader
tries null, truth value, integer, number, text, bytes and array, in this order, so an array of
small numbers is read as bytes.
-/

namespace RecordMapper

namespace Json

def optional? {α : Type} (read : Json → Option α) : Json → Option (Option α)
  | null => some none
  | json => (read json).map some

/--
The members of a record by name.  An object may lack members and have others besides; an array
gives them in order and may stop early.
-/
def slots? (names : List String) : Json → Option (List (Option Json))
  | object members => some (names.map fun name => members.lookup name)
  | array items =>
      if items.length ≤ names.length then
        some (items.map some ++ List.replicate (names.length - items.length) none)
      else none
  | _ => none

/-- A name of a fixed list: the text itself, or an object with the name as its only member. -/
def tag? : Json → Option String
  | string s => some s
  | object [(name, null)] => some name
  | _ => none

end Json

namespace Value

mutual

def toJson : Value → Json
  | null => .null
  | bool b => .bool b
  | integer n => .integer n.toInt
  | float x => if x.isFinite then .number x else .null
  | text s => .string s
  | binary bytes => .array (bytes.map fun byte => .integer byte.toNat)
  | array items => .array (toJsonAll items)

def toJsonAll : List Value → List Json
  | [] => []
  | item :: rest => toJson item :: toJsonAll rest

end

mutual

def ofJson? : Json → Option Value
  | .null => some .null
  | .bool b => some (.bool b)
  | .integer n => some (ofInt n)
  | .number x => some (.float x)
  | .string s => some (.text s)
  | .array items =>
      match items.mapM Json.byte with
      | some bytes => some (.binary bytes)
      | none => (ofJsonAll? items).map .array
  | .object _ => none

def ofJsonAll? : List Json → Option (List Value)
  | [] => some []
  | item :: rest =>
      match ofJson? item, ofJsonAll? rest with
      | some value, some values => some (value :: values)
      | _, _ => none

end

end Value

namespace Json

/-- A member that is left out when absent. -/
def whenPresent {α : Type} (name : String) (write : α → Json) : Option α → List (String × Json)
  | none => []
  | some a => [(name, write a)]

/-- A member that may be missing, and then has a given value. -/
def missingOr {α : Type} (missing : α) (read : Json → Option α) : Option Json → Option α
  | none => some missing
  | some json => read json

def required {α : Type} (read : Json → Option α) : Option Json → Option α
  | none => none
  | some json => read json

def ofWord32 (n : UInt32) : Json :=
  integer n.toNat

end Json

namespace Field

def jsonNames : List String :=
  ["name", "type", "length", "precision", "nullable", "default", "array", "use"]

def ofJson? (json : Json) : Option Field :=
  match json.slots? jsonNames with
  | some [name, type, length, precision, nullable, default, isArray, native] => do
      some
        { name := ← Json.required Json.text name
          typeName := ← Json.required Json.text type
          length := ← Json.missingOr none (Json.optional? Json.word32) length
          precision := ← Json.missingOr none (Json.optional? Json.word32) precision
          nullable := ← Json.missingOr true Json.truth nullable
          default := ← Json.missingOr none (Json.optional? Value.ofJson?) default
          isArray := ← Json.missingOr false Json.truth isArray
          nativeType := ← Json.missingOr none (Json.optional? Json.text) native }
  | _ => none

def toJson (field : Field) : Json :=
  .object <|
    [("name", .string field.name), ("type", .string field.typeName)] ++
      Json.whenPresent "length" Json.ofWord32 field.length ++
      Json.whenPresent "precision" Json.ofWord32 field.precision ++
      [("nullable", .bool field.nullable)] ++
      Json.whenPresent "default" Value.toJson field.default ++
      [("array", .bool field.isArray)] ++
      Json.whenPresent "use" .string field.nativeType

end Field

namespace FieldShape

def jsonNames : List String :=
  ["type", "length", "precision", "null", "default", "array"]

def ofJson? (json : Json) : Option FieldShape :=
  match json.slots? jsonNames with
  | some [type, length, precision, nullable, default, isArray] => do
      some
        { typeName := ← Json.required Json.text type
          length := ← Json.missingOr none (Json.optional? Json.word32) length
          precision := ← Json.missingOr none (Json.optional? Json.word32) precision
          nullable := ← Json.required Json.truth nullable
          default := ← Json.missingOr none (Json.optional? Value.ofJson?) default
          isArray := ← Json.required Json.truth isArray }
  | _ => none

def toJson (shape : FieldShape) : Json :=
  .object <|
    [("type", .string shape.typeName)] ++
      Json.whenPresent "length" Json.ofWord32 shape.length ++
      Json.whenPresent "precision" Json.ofWord32 shape.precision ++
      [("null", .bool shape.nullable),
        ("default", (shape.default.map Value.toJson).getD .null),
        ("array", .bool shape.isArray)]

end FieldShape

namespace Dialect

def ofJson? (json : Json) : Option Dialect :=
  json.tag?.bind ofName?

def toJson (d : Dialect) : Json :=
  .string d.name

end Dialect

namespace LogicalType

def ofJson? (json : Json) : Option LogicalType :=
  json.tag?.bind ofName?

def toJson (type : LogicalType) : Json :=
  .string type.name

end LogicalType

end RecordMapper
