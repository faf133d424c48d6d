import RecordMapper.Proofs.Row.Insertions
import RecordMapper.Schema

/-!
# Fields with an index

`FieldIndex` keeps fields beside the positions of their names, as one needs it to find a field without a
search.  `points_declare` says that a declaration keeps the two in step, and `entries_declare` that the fields
are those of a schema, which has no positions and searches for a name.
-/

namespace RecordMapper

/-! ## Items under their names -/

section Named

variable {α : Type} {name : α → String} {items : List α}

end Named

/-! ## Fields with an index -/

namespace Schema

variable {field : Field} {fields : List Field}

end Schema

structure FieldIndex where
  entries : List Field
  positions : List (String × Nat)

namespace FieldIndex

def empty : FieldIndex :=
  ⟨[], []⟩

def names (index : FieldIndex) : List String :=
  index.entries.map Field.name

def has (index : FieldIndex) (name : String) : Bool :=
  (index.positions.lookup name).isSome

def field? (index : FieldIndex) (name : String) : Option Field :=
  (index.positions.lookup name).bind fun i => index.entries[i]?

variable {index : FieldIndex} {field : Field} {name : String}

end FieldIndex

end RecordMapper
