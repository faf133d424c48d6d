import RecordMapper.Entity.Path
import RecordMapper.Value.Tagged

/-!
# Entities in JSON

An entity is written with all that is attached to it, the relations in alphabetical order.
-/

namespace RecordMapper

def sortedPairs (named : List (String × Json)) : Json :=
  .array ((named.mergeSort fun a b => a.1 ≤ b.1).map fun (name, json) =>
    .array [.string name, json])

def textList (texts : List String) : Json :=
  .array (texts.map .string)

mutual

def Entity.toJson : Entity → Json
  | ⟨model, fields, snapshot, relations⟩ =>
      .object
        [("model", .string model), ("exists", .bool snapshot.isSome),
          ("fields", fields.toTagged),
          ("modified", textList (Entity.modified ⟨model, fields, snapshot, []⟩)),
          ("relations", sortedPairs (relationsJson relations))]

def Related.toJson : Related → Json
  | .one none => .object [("one", .null)]
  | .one (some entity) => .object [("one", entity.toJson)]
  | .many collection => collection.toJson
  | .through => .string "through"

def Collection.toJson : Collection → Json
  | ⟨model, entities⟩ =>
      .object [("model", .string model), ("many", .array (entitiesJson entities))]

def entitiesJson : List Entity → List Json
  | [] => []
  | entity :: rest => entity.toJson :: entitiesJson rest

def relationsJson : List (String × Related) → List (String × Json)
  | [] => []
  | (name, related) :: rest => (name, related.toJson) :: relationsJson rest

end

def Part.toJson : Part → Json
  | .entity e => e.toJson
  | .collection c => c.toJson

end RecordMapper
