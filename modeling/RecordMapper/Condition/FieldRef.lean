import RecordMapper.Dialect.Quoting

/-!
# References to fields

A reference names a field and perhaps the table it belongs to.
-/

namespace RecordMapper

structure FieldRef where
  table : Option String
  name : String
  deriving DecidableEq

namespace FieldRef

/-- Cuts a dotted path at its last dot.  A path that begins with its only dot names no table. -/
def ofPath (path : String) : FieldRef :=
  match Text.cutLast (· == '.') path.toList with
  | some (before, after) =>
      if before.isEmpty then ⟨none, path⟩
      else ⟨some (String.ofList before), String.ofList after⟩
  | none => ⟨none, path⟩

def path (ref : FieldRef) : String :=
  match ref.table with
  | some table => table ++ "." ++ ref.name
  | none => ref.name

/-- A reference in a statement; a star stands for itself. -/
def render (d : Dialect) (ref : FieldRef) : String :=
  match ref.table with
  | some table => d.quotePath table ++ "." ++ d.quotePart ref.name
  | none => d.quotePart ref.name

def inTable (table : String) (ref : FieldRef) : FieldRef :=
  match ref.table with
  | some _ => ref
  | none => { ref with table := some table }

end FieldRef

end RecordMapper
