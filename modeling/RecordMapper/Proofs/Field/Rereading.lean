import RecordMapper.Field.Json
import RecordMapper.Proofs.Number.Reading
import RecordMapper.Proofs.Value.Agreement
import RecordMapper.Statement.Table

/-!
# Values and field definitions in JSON

A value has no tag in JSON, and bytes are tried before arrays.  `reread` says what is read back from
a value that was written, and `survives` for which values this is an equal one: no array in it may
hold bytes only, and an empty array does.  `reads_written` says both of values, fields and shapes;
there a default of null is not read back either.
-/

namespace RecordMapper

namespace Json

/-! ## Parts of a record -/

theorem lookup_whenPresent {α : Type} (key name : String) (write : α → Json) (part : Option α) :
    (whenPresent name write part).lookup key = if key = name then part.map write else none := by
  cases part with
  | none => simp [whenPresent]
  | some a =>
      by_cases hkey : key = name
      · simp [whenPresent, hkey]
      · simp [whenPresent, List.lookup_cons, beq_eq_false_iff_ne.mpr hkey, hkey]

theorem missingOr_map {α β : Type} {read : Json → Option β} {write : α → Json} {back : α → Option β}
    (h : ∀ a, optional? read (write a) = some (back a)) (part : Option α) :
    missingOr none (optional? read) (part.map write) = some (part.bind back) := by
  cases part with
  | none => rfl
  | some a => exact h a

theorem wholeBelow_toNat {bound n : Nat} (h : n < bound) :
    (wholeBelow bound (.integer n) : Option Nat) = some n := by
  have hbounds : (0 : Int) ≤ n ∧ (n : Int) < bound := ⟨Int.natCast_nonneg n, by exact_mod_cast h⟩
  rw [wholeBelow, if_pos hbounds, Int.toNat_natCast]
  rfl

theorem byte_toNat (byte : UInt8) : (Json.byte (.integer byte.toNat) : Option UInt8) = some byte := by
  rw [Json.byte, wholeBelow_toNat byte.toNat_lt]
  exact congrArg some UInt8.ofNat_toNat

theorem optional?_ofWord32 (n : UInt32) : optional? word32 (ofWord32 n) = some (some n) := by
  change Option.map some (word32 (ofWord32 n)) = _
  rw [word32, ofWord32, wholeBelow_toNat n.toNat_lt]
  exact congrArg (fun n => some (some n)) UInt32.ofNat_toNat

end Json

namespace Value

def byte? : Value → Option UInt8
  | integer n => if 0 ≤ n.toInt ∧ n.toInt < UInt8.size then some (UInt8.ofNat n.toInt.toNat) else none
  | _ => none

mutual

/-- The value that is read back from a value that was written. -/
def reread : Value → Value
  | float x => if x.isFinite then float x else null
  | array items =>
      match items.mapM byte? with
      | some bytes => binary bytes
      | none => array (rereadAll items)
  | value => value

def rereadAll : List Value → List Value
  | [] => []
  | item :: rest => reread item :: rereadAll rest

end

mutual

/-- Whether all numbers of a value are finite, and every array in it has an item that is no byte. -/
def survives : Value → Bool
  | float x => x.isFinite
  | array items => items.any (fun item => item.byte?.isNone) && allSurvive items
  | _ => true

def allSurvive : List Value → Bool
  | [] => true
  | item :: rest => survives item && allSurvive rest

end

theorem ofInt_toInt (n : Int64) : ofInt n.toInt = integer n := by
  rw [ofInt, if_pos (bounds_toInt n), Int64.ofInt_toInt]

/-! ## Bytes -/

theorem byte_toJson (v : Value) : (Json.byte v.toJson : Option UInt8) = v.byte? := by
  cases v with
  | integer n =>
      simp only [toJson, Json.byte, Json.wholeBelow, byte?]
      split <;> rfl
  | float x =>
      rw [toJson]
      split <;> rfl
  | null | bool | text | binary | array => rfl

theorem mapM_byte_toJsonAll (items : List Value) :
    (toJsonAll items).mapM Json.byte = items.mapM byte? := by
  induction items with
  | nil => rfl
  | cons item rest ih => rw [toJsonAll, List.mapM_cons, List.mapM_cons, byte_toJson, ih]

theorem mapM_byte_bytes (bytes : List UInt8) :
    (bytes.map fun byte => Json.integer byte.toNat).mapM Json.byte = some bytes := by
  induction bytes with
  | nil => rfl
  | cons byte rest ih =>
      rw [List.map_cons, List.mapM_cons, Json.byte_toNat, ih]
      rfl

theorem isNone_mapM_byte? (items : List Value) :
    (items.mapM byte?).isNone = items.any fun item => item.byte?.isNone := by
  induction items with
  | nil => rfl
  | cons item rest ih =>
      rw [List.mapM_cons, List.any_cons, ← ih]
      cases item.byte? with
      | none => rfl
      | some byte => cases rest.mapM byte? <;> rfl

/-! ## Reading values -/

mutual

theorem ofJson?_toJson : (v : Value) → ofJson? v.toJson = some v.reread
  | null | bool _ | text _ => rfl
  | integer n => congrArg some (ofInt_toInt n)
  | float x => by
      rw [toJson, reread]
      split <;> rfl
  | binary bytes => by
      rw [toJson, ofJson?, mapM_byte_bytes]
      rfl
  | array items => by
      rw [toJson, ofJson?, mapM_byte_toJsonAll, ofJsonAll?_toJsonAll items, reread]
      cases items.mapM byte? <;> rfl

theorem ofJsonAll?_toJsonAll : (items : List Value) →
    ofJsonAll? (toJsonAll items) = some (rereadAll items)
  | [] => rfl
  | item :: rest => by
      rw [toJsonAll, ofJsonAll?, ofJson?_toJson item, ofJsonAll?_toJsonAll rest, rereadAll]

end

mutual

theorem equals_reread : (v : Value) → v.reread.equals v = v.survives
  | null => rfl
  | bool b | integer n | text s | binary bytes => by simp [reread, equals, survives]
  | float x => by
      rw [reread, survives]
      cases hfinite : x.isFinite with
      | false => rfl
      | true =>
          have hnan : x.isNaN = false := Binary64.isNaN_of_isFinite hfinite
          exact Binary64.equals_iff.mpr ⟨hnan, hnan, .inl rfl⟩
  | array items => by
      rw [reread, survives, ← isNone_mapM_byte?, ← equalsAll_rereadAll items]
      cases items.mapM byte? with
      | none => rfl
      | some bytes => rfl

theorem equalsAll_rereadAll : (items : List Value) →
    equalsAll (rereadAll items) items = allSurvive items
  | [] => rfl
  | item :: rest => by
      rw [rereadAll, equalsAll, equals_reread item, equalsAll_rereadAll rest, allSurvive]

end

/-! ## Defaults -/

def rereadDefault (value : Value) : Option Value :=
  if value.reread.isNull then none else some value.reread

def defaultSurvives (value : Value) : Bool :=
  !value.isNull && value.survives

theorem optional?_toJson (v : Value) :
    Json.optional? ofJson? v.toJson = some v.rereadDefault := by
  cases v with
  | float x =>
      rw [rereadDefault, toJson, reread]
      split <;> rfl
  | array items =>
      have hread := ofJson?_toJson (array items)
      rw [toJson] at hread ⊢
      rw [Json.optional?, hread, rereadDefault, reread]
      · cases items.mapM byte? <;> rfl
      · exact nofun
  | integer n => exact congrArg (fun value => some (some value)) (ofInt_toInt n)
  | binary bytes =>
      have hread := ofJson?_toJson (binary bytes)
      rw [toJson] at hread ⊢
      rw [Json.optional?, hread]
      · rfl
      · exact nofun
  | null | bool | text => rfl

theorem equalsOption_rereadDefault (default : Option Value) :
    equalsOption (default.bind rereadDefault) default = default.all defaultSurvives := by
  cases default with
  | none => rfl
  | some value =>
      rw [Option.bind_some, Option.all_some, rereadDefault, defaultSurvives, ← equals_reread]
      cases hread : value.reread.isNull with
      | true =>
          have hnull : value.reread = null := by
            cases hvalue : value.reread <;> first | rfl | (rw [hvalue] at hread; cases hread)
          rw [hnull]
          cases value <;> rfl
      | false =>
          have hvalue : value.isNull = false := by
            cases value <;> first | rfl | cases hread
          rw [hvalue]
          rfl

end Value

/-! ## Field definitions -/

namespace FieldShape

/-- Equality of shapes, part by part. -/
def equals (a b : FieldShape) : Bool :=
  a.typeName == b.typeName && a.length == b.length && a.precision == b.precision &&
    a.nullable == b.nullable && Value.equalsOption a.default b.default && a.isArray == b.isArray

def reread (shape : FieldShape) : FieldShape :=
  { shape with default := shape.default.bind Value.rereadDefault }

theorem ofJson?_toJson (shape : FieldShape) : ofJson? shape.toJson = some shape.reread := by
  have hdefault : Json.missingOr none (Json.optional? Value.ofJson?)
      (some ((shape.default.map Value.toJson).getD .null)) =
        some (shape.default.bind Value.rereadDefault) := by
    cases shape.default with
    | none => rfl
    | some value => exact value.optional?_toJson
  simp only [ofJson?, toJson, Json.slots?, jsonNames, List.map_cons, List.map_nil,
    List.lookup_append, Json.lookup_whenPresent]
  simp [List.lookup_cons, Json.missingOr_map Json.optional?_ofWord32, hdefault, Json.required,
    Json.text, Json.truth, reread]

theorem equals_reread (shape : FieldShape) :
    shape.reread.equals shape = shape.default.all Value.defaultSurvives := by
  simp [equals, reread, Value.equalsOption_rereadDefault]

end FieldShape

namespace Field

def equals (a b : Field) : Bool :=
  a.name == b.name && a.shape.equals b.shape && a.nativeType == b.nativeType

def reread (field : Field) : Field :=
  { field with default := field.default.bind Value.rereadDefault }

theorem ofJson?_toJson (field : Field) : ofJson? field.toJson = some field.reread := by
  have htruth : ∀ missing b : Bool,
      (Json.missingOr missing Json.truth (some (.bool b)) : Option Bool) = some b := fun _ _ => rfl
  have hnative : ∀ s, Json.optional? Json.text (.string s) = some (some s) := fun _ => rfl
  simp only [ofJson?, toJson, Json.slots?, jsonNames, List.map_cons, List.map_nil,
    List.lookup_append, Json.lookup_whenPresent]
  simp [List.lookup_cons, Json.missingOr_map Json.optional?_ofWord32,
    Json.missingOr_map Value.optional?_toJson, Json.missingOr_map hnative, htruth, Json.required,
    Json.text, reread]

theorem equals_reread (field : Field) :
    field.reread.equals field = field.default.all Value.defaultSurvives := by
  have hshape : field.reread.shape = field.shape.reread := rfl
  have hdefault : field.shape.default = field.default := rfl
  rw [equals, hshape, FieldShape.equals_reread, hdefault]
  simp [reread]

end Field

theorem all_defaultSurvives_iff {default : Option Value} :
    default.all Value.defaultSurvives = true ↔
      ∀ value, default = some value → value ≠ .null ∧ value.survives = true := by
  have hnull : ∀ value : Value, value.isNull = false ↔ value ≠ .null := by
    intro value
    cases value <;> simp [Value.isNull]
  rw [Option.all_eq_true]
  simp only [Value.defaultSurvives, Bool.and_eq_true, Bool.not_eq_true', hnull]

/-- Whatever is written is read back: a value equals what is read back if and only if it survives,
and a definition or shape if and only if it has no default or one that is not null and survives. -/
theorem reads_written (value : Value) (field : Field) (shape : FieldShape) :
    (Value.ofJson? value.toJson = some value.reread ∧
      (value.reread.equals value = true ↔ value.survives = true)) ∧
    (Field.ofJson? field.toJson = some field.reread ∧
      (field.reread.equals field = true ↔
        ∀ value, field.default = some value → value ≠ .null ∧ value.survives = true)) ∧
    (FieldShape.ofJson? shape.toJson = some shape.reread ∧
      (shape.reread.equals shape = true ↔
        ∀ value, shape.default = some value → value ≠ .null ∧ value.survives = true)) := by
  refine ⟨⟨value.ofJson?_toJson, ?_⟩, ⟨field.ofJson?_toJson, ?_⟩, ⟨shape.ofJson?_toJson, ?_⟩⟩
  · rw [Value.equals_reread]
  · rw [Field.equals_reread, all_defaultSurvives_iff]
  · rw [FieldShape.equals_reread, all_defaultSurvives_iff]

/-- An array of small numbers comes back as bytes, which gives the column another default, and a
default of null does not come back. -/
theorem reread_loses_defaults :
    ∃ field other : Field, field.default = some (.array [.integer 1, .integer 2]) ∧
      other.default = some .null ∧
      (Field.ofJson? field.toJson).map Field.default = some (some (.binary [1, 2])) ∧
      (Field.ofJson? other.toJson).map Field.default = some none ∧
      Dialect.postgresql.defaultText field (.array [.integer 1, .integer 2]) = "'\x7b1,2\x7d'" ∧
      Dialect.postgresql.defaultText field (.binary [1, 2]) = "'\\x0102'" :=
  ⟨{ name := "tags", typeName := "integer", default := some (.array [.integer 1, .integer 2])
     isArray := true },
    { name := "note", typeName := "text", default := some .null },
    rfl, rfl, rfl, rfl, by decide +kernel, by decide +kernel⟩

end RecordMapper
