import RecordMapper.Value.Tagged

/-!
# Field definitions with all their parts

Here every part of a definition has a member, null when it is absent, and a default is a tagged
value under a member of its own, so that a default of null differs from none.
-/

namespace RecordMapper

namespace Json

def orNull {α : Type} (write : α → Json) : Option α → Json
  | some a => write a
  | none => null

end Json

namespace Value

def optionToTagged : Option Value → Json :=
  Json.orNull fun value => .object [("some", value.toTagged)]

end Value

namespace FieldShape

/-- The parts of a shape, with a name for whether null is admitted. -/
def members (shape : FieldShape) (nullName : String) : List (String × Json) :=
  [("type", .string shape.typeName), ("length", Json.orNull Json.ofWord32 shape.length),
    ("precision", Json.orNull Json.ofWord32 shape.precision), (nullName, .bool shape.nullable),
    ("default", Value.optionToTagged shape.default), ("array", .bool shape.isArray)]

def toTagged (shape : FieldShape) : Json :=
  .object (shape.members "null")

end FieldShape

namespace Field

def toTagged (field : Field) : Json :=
  .object
    (("name", .string field.name) :: field.shape.members "nullable" ++
      [("use", Json.orNull .string field.nativeType),
        ("logical", Json.orNull .string (field.logicalType?.map LogicalType.name))])

end Field

end RecordMapper
