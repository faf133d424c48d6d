import RecordMapper.Condition.Json
import RecordMapper.Proofs.Attempt

/-!
# Shapes of columns

A document that stands for columns has leaves: texts, operators with their operands, and what is neither.
Its columns are those of its leaves, in their order, and a field that names no table belongs to the
nearest name around it: `ofJson_lists_leaves`.  `ofJson` gives tables to fields from the inside to the
outside; `leaves` goes the other way and keeps the names that it has passed.
-/

namespace RecordMapper

namespace Column

inductive LeafContent
  | field (path : String) (label? : Option String)
  | operator (name : String) (operands : Json)
  | scalar (label? : Option String) (input : Json)

/-- A leaf of a document, with the names of the mappings around it.  The nearest name is the first. -/
structure Leaf where
  around : List String
  content : LeafContent

mutual

/-- The leaves of a document in their order.  A name before a text is its label, and a name before an
array or an object is around all leaves in it. -/
def leaves (around : List String) (name? : Option String) : Json → List Leaf
  | .string path => [⟨around, .field path name?⟩]
  | .array items => leavesOfItems (name?.toList ++ around) items
  | .object members => leavesOfMembers (name?.toList ++ around) members
  | input => [⟨around, .scalar name? input⟩]

def leavesOfItems (around : List String) : List Json → List Leaf
  | [] => []
  | item :: rest => leaves around none item ++ leavesOfItems around rest

def leavesOfMembers (around : List String) : List (String × Json) → List Leaf
  | [] => []
  | (name, content) :: rest =>
      (if name.startsWith ":" then [⟨around, .operator name content⟩]
        else leaves around (some name) content) ++
      leavesOfMembers around rest

end

namespace Leaf

/-- The column of a leaf, or what is wrong with it. -/
def read : Leaf → Attempt Column
  | ⟨around, .field path label?⟩ =>
      .ok (.field ⟨(FieldRef.ofPath path).table.or around.head?, (FieldRef.ofPath path).name⟩ label?)
  | ⟨_, .operator name operands⟩ =>
      (fun tree => .expr tree none) <$> Condition.ofJson (.object [(name, operands)])
  | ⟨_, .scalar none input⟩ => .error (.columnShape input)
  | ⟨_, .scalar (some name) input⟩ => .error (.columnShapeUnder name input)

/-- The column that a leaf stands for: a field keeps its own table or takes the nearest name, and an
expression is the same wherever it stands. -/
inductive Yields : Leaf → Column → Prop
  | qualified {around : List String} {path own : String} {label? : Option String}
      (h : (FieldRef.ofPath path).table = some own) :
      Yields ⟨around, .field path label?⟩ (.field (FieldRef.ofPath path) label?)
  | bare {around : List String} {path : String} {label? : Option String}
      (h : (FieldRef.ofPath path).table = none) :
      Yields ⟨around, .field path label?⟩ (.field ⟨around.head?, path⟩ label?)
  | operator {around : List String} {name : String} {operands : Json} {tree : Condition}
      (h : Condition.ofJson (.object [(name, operands)]) = .ok tree) :
      Yields ⟨around, .operator name operands⟩ (.expr tree none)

/-- The leaf is a scalar that is no text, or an expression that cannot be read. -/
def IsRefused (leaf : Leaf) : Prop :=
  match leaf.content with
  | .field _ _ => False
  | .operator name operands => ∃ error, Condition.ofJson (.object [(name, operands)]) = .error error
  | .scalar _ _ => True

variable {leaf : Leaf} {column : Column}

theorem name_ofPath {path : String} (h : (FieldRef.ofPath path).table = none) :
    FieldRef.ofPath path = ⟨none, path⟩ := by
  unfold FieldRef.ofPath at h ⊢
  split at h
  · split at h
    next hempty => simp [hempty]
    next => cases h
  · rfl

theorem read_eq_ok : leaf.read = .ok column ↔ leaf.Yields column := by
  obtain ⟨around, content⟩ := leaf
  cases content with
  | field path label? =>
      cases htable : (FieldRef.ofPath path).table with
      | none =>
          have hread : read ⟨around, .field path label?⟩ = .ok (.field ⟨around.head?, path⟩ label?) := by
            rw [read, name_ofPath htable]
            rfl
          rw [hread]
          constructor
          · rintro ⟨⟩
            exact .bare htable
          · rintro (h | - | -)
            · cases htable.symm.trans h
            · rfl
      | some own =>
          have hread : read ⟨around, .field path label?⟩ = .ok (.field (FieldRef.ofPath path) label?) := by
            rw [read, htable, Option.some_or, ← htable]
          rw [hread]
          constructor
          · rintro ⟨⟩
            exact .qualified htable
          · rintro (- | h | -)
            · rfl
            · cases htable.symm.trans h
  | operator name operands =>
      rw [read, attempt_map_eq_ok]
      constructor
      · rintro ⟨tree, htree, rfl⟩
        exact .operator htree
      · rintro (- | - | htree)
        exact ⟨_, htree, rfl⟩
  | scalar label? input =>
      constructor
      · intro h
        cases label? with
        | _ => cases h
      · nofun

theorem exists_error_iff : (∃ error, leaf.read = .error error) ↔ leaf.IsRefused := by
  obtain ⟨around, content⟩ := leaf
  cases content with
  | field path label? => simp [read, IsRefused]
  | operator name operands =>
      rw [read, IsRefused]
      cases hread : Condition.ofJson (.object [(name, operands)]) with
      | ok tree => simp [hread]
      | error error => simp [hread]
  | scalar label? input =>
      cases label? with
      | _ => simp [read, IsRefused]

end Leaf

/-! ## Tables from the outside -/

def within (around : List String) (column : Column) : Column :=
  match around.head? with
  | some name => column.inTable name
  | none => column

theorem within_inTable (around : List String) (name : String) (column : Column) :
    (column.inTable name).within around = column.inTable name := by
  unfold within
  cases around with
  | nil => rfl
  | cons outer around =>
      cases column with
      | field ref label? =>
          obtain ⟨own?, field⟩ := ref
          cases own? with
          | _ => rfl
      | _ => rfl

theorem mapM_append_eq {around : List String} {firsts rest : List Leaf}
    {columns more : Attempt (List Column)}
    (hfirsts : firsts.mapM Leaf.read = List.map (within around) <$> columns)
    (hrest : rest.mapM Leaf.read = List.map (within around) <$> more) :
    (firsts ++ rest).mapM Leaf.read = List.map (within around) <$> do
      let columns ← columns
      let more ← more
      return columns ++ more := by
  rw [List.mapM_append, hfirsts, hrest]
  cases columns with
  | error error => rfl
  | ok columns =>
      cases more with
      | error error => rfl
      | ok more => simp [bind, Except.bind, pure, Except.pure, Functor.map, Except.map]

theorem mapM_leaf (leaf : Leaf) : [leaf].mapM Leaf.read = (fun column => [column]) <$> leaf.read := by
  rw [List.mapM_cons]
  cases leaf.read with
  | _ => rfl

theorem read_field (around : List String) (path : String) (label? : Option String) :
    Leaf.read ⟨around, .field path label?⟩ =
      .ok (within around (.field (FieldRef.ofPath path) label?)) := by
  rw [Leaf.read]
  obtain ⟨own?, name⟩ := FieldRef.ofPath path
  cases around with
  | nil => simp [within]
  | cons nearest around =>
      cases own? <;> simp [within, inTable, FieldRef.inTable]

/-- What stands in a table already is not moved by the names further outside. -/
theorem map_within_inTable (around : List String) (name : String) (columns : Attempt (List Column)) :
    List.map (within around) <$> (List.map (inTable name) <$> columns) =
      List.map (within (name :: around)) <$> columns := by
  have hinner : within around ∘ inTable name = within (name :: around) :=
    funext fun column => within_inTable around name column
  rw [Functor.map_map]
  simp only [List.map_map, hinner]

def ofNamedJson (name : String) : Json → Attempt (List Column)
  | .string path => .ok [(ofPath path).named name]
  | .array items => List.map (inTable name) <$> ofJsonAll items
  | .object members => List.map (inTable name) <$> ofJsonMembers members
  | input => .error (.columnShapeUnder name input)

def ofOperatorJson (name : String) (operands : Json) : Attempt (List Column) :=
  (fun tree => [.expr tree none]) <$> Condition.ofJson (.object [(name, operands)])

def memberColumns (name : String) (content : Json) : Attempt (List Column) :=
  if name.startsWith ":" then ofOperatorJson name content else ofNamedJson name content

theorem ofJsonMembers_cons (name : String) (content : Json) (rest : List (String × Json)) :
    ofJsonMembers ((name, content) :: rest) = do
      let columns ← memberColumns name content
      let more ← ofJsonMembers rest
      return columns ++ more := by
  cases content with
  | _ =>
      by_cases hop : name.startsWith ":" = true
      · simp only [ofJsonMembers, memberColumns, ofOperatorJson, hop, if_true]
      · simp only [ofJsonMembers, memberColumns, ofNamedJson, hop]
        rfl

theorem mapM_operator (around : List String) (name : String) (operands : Json) :
    [Leaf.mk around (.operator name operands)].mapM Leaf.read =
      List.map (within around) <$> ofOperatorJson name operands := by
  have hexpr : ∀ tree label?, within around (.expr tree label?) = .expr tree label? := by
    cases around with
    | _ => exact fun _ _ => rfl
  rw [mapM_leaf, Leaf.read, ofOperatorJson, Functor.map_map, Functor.map_map]
  simp only [List.map_cons, List.map_nil, hexpr]

mutual

/-- The leaves of a document are its columns, each within the names that are around the document. -/
theorem mapM_leaves : (json : Json) → (around : List String) →
    (leaves around none json).mapM Leaf.read = List.map (within around) <$> ofJson json ∧
    ∀ name, (leaves around (some name) json).mapM Leaf.read =
      List.map (within around) <$> ofNamedJson name json
  | .string path, around => by
      simp only [leaves, mapM_leaf, read_field]
      exact ⟨rfl, fun name => rfl⟩
  | .array items, around => by
      refine ⟨mapM_leavesOfItems items around, fun name => ?_⟩
      rw [ofNamedJson, map_within_inTable]
      exact mapM_leavesOfItems items (name :: around)
  | .object members, around => by
      refine ⟨mapM_leavesOfMembers members around, fun name => ?_⟩
      rw [ofNamedJson, map_within_inTable]
      exact mapM_leavesOfMembers members (name :: around)
  | .null, _ | .bool _, _ | .integer _, _ | .number _, _ => ⟨rfl, fun name => rfl⟩

theorem mapM_leavesOfItems : (items : List Json) → (around : List String) →
    (leavesOfItems around items).mapM Leaf.read = List.map (within around) <$> ofJsonAll items
  | [], _ => rfl
  | item :: rest, around =>
      mapM_append_eq (mapM_leaves item around).1 (mapM_leavesOfItems rest around)

theorem mapM_leavesOfMembers : (members : List (String × Json)) → (around : List String) →
    (leavesOfMembers around members).mapM Leaf.read =
      List.map (within around) <$> ofJsonMembers members
  | [], _ => rfl
  | (name, content) :: rest, around => by
      rw [ofJsonMembers_cons, leavesOfMembers]
      refine mapM_append_eq ?_ (mapM_leavesOfMembers rest around)
      rw [memberColumns]
      split
      · exact mapM_operator around name content
      · exact (mapM_leaves content around).2 name

end

theorem ofJson_eq_mapM (json : Json) : ofJson json = (leaves [] none json).mapM Leaf.read := by
  have hwithin : within [] = id := rfl
  rw [(mapM_leaves json []).1, hwithin, List.map_id_fun, id_map]

theorem ofJsonAll_eq (items : List Json) :
    ofJsonAll items = List.flatten <$> items.mapM ofJson := by
  induction items with
  | nil => rfl
  | cons item rest ih =>
      rw [ofJsonAll, ih, List.mapM_cons]
      simp only [map_bind, bind_map_left, map_pure, List.flatten_cons]

/-- The columns of a document are those of its leaves, in their order: a field keeps its own table or
takes the nearest name around it, with the label that stands before it, and an expression stays as it is.
An array has the columns of its items one after the other, and a document is refused if and only if one
of its leaves is. -/
theorem ofJson_lists_leaves (json : Json) :
    (∀ columns, ofJson json = .ok columns ↔
      List.Forall₂ Leaf.Yields (leaves [] none json) columns) ∧
    (∀ items, ofJson (.array items) = List.flatten <$> items.mapM ofJson) ∧
    ((∃ error, ofJson json = .error error) ↔ ∃ leaf ∈ leaves [] none json, leaf.IsRefused) := by
  refine ⟨fun columns => ?_, ofJsonAll_eq, ?_⟩
  · rw [ofJson_eq_mapM, attempt_mapM_eq_ok]
    simp only [Leaf.read_eq_ok]
  · rw [ofJson_eq_mapM, attempt_mapM_eq_error]
    simp only [Leaf.exists_error_iff]

/-- A label in a table in another table, beside a field that has a table of its own. -/
example : ofJson (.object [("a", .array [.object [("b", .array [.object [("x", .string "f")]]),
      ("y", .string "t.g")], .string "h"])]) =
    .ok [.field ⟨some "b", "f"⟩ (some "x"), .field ⟨some "t", "g"⟩ (some "y"),
      .field ⟨some "a", "h"⟩ none] := by
  cbv

end Column

end RecordMapper
