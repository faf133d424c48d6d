import RecordMapper.Json
import RecordMapper.Text.Segment

/-!
# Trees of relations

The relations to load or to save with a record, written as dotted paths.  A tree is a list of named
relations, each with the tree of the relations below it; the relations keep the order in which their
paths first named them.
-/

namespace RecordMapper

/-- A list of named relations with the trees below them. -/
inductive EmbedTree
  | nil
  | cons (name : String) (below : EmbedTree) (rest : EmbedTree)
  deriving DecidableEq, Inhabited

namespace EmbedTree

/-- Changes the tree below a relation; a relation that is not there yet comes last. -/
def update (name : String) (change : EmbedTree → EmbedTree) : EmbedTree → EmbedTree
  | nil => cons name (change nil) nil
  | cons other below rest =>
      if other = name then cons other (change below) rest
      else cons other below (update name change rest)

def insertNames : List String → EmbedTree → EmbedTree
  | [], tree => tree
  | name :: names, tree => tree.update name (insertNames names)

/-- The names of a dotted path; empty ones do not count. -/
def pathNames (path : String) : List String :=
  (Text.split '.' path).filter fun name => !name.isEmpty

def insert (tree : EmbedTree) (path : String) : EmbedTree :=
  insertNames (pathNames path) tree

def ofPaths (paths : List String) : EmbedTree :=
  paths.foldl insert nil

/-- Adds all relations of another tree. -/
def extend (tree : EmbedTree) : EmbedTree → EmbedTree
  | nil => tree
  | cons name below rest => extend (tree.update name fun node => extend node below) rest

/-- Adds all relations of another tree below a relation. -/
def merge (tree : EmbedTree) (name : String) (other : EmbedTree) : EmbedTree :=
  tree.update name fun node => extend node other

def get? (name : String) : EmbedTree → Option EmbedTree
  | nil => none
  | cons other below rest => if other = name then some below else get? name rest

def names : EmbedTree → List String
  | nil => []
  | cons name _ rest => name :: rest.names

def size : EmbedTree → Nat
  | nil => 0
  | cons _ _ rest => rest.size + 1

/-- The relations of a tree, each with the tree below it, as pairs. -/
def pairs : EmbedTree → List Json
  | nil => []
  | cons name below rest => .array [.string name, .array below.pairs] :: rest.pairs

def toJson (tree : EmbedTree) : Json :=
  .array tree.pairs

end EmbedTree

end RecordMapper
