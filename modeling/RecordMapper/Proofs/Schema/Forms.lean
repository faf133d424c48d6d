import RecordMapper.Proofs.Entity.Undefined
import RecordMapper.Proofs.Pointwise
import RecordMapper.Proofs.Schema.CastRows
import RecordMapper.Session.Embedding

/-!
# The forms of cast values

A cast leads into the form of the type of a field, and a value that has this form is not changed.
So what was cast once is cast to itself, and an entity of a cast row has no changes.
-/

namespace RecordMapper

/-! ## Forms -/

namespace LogicalType

def holds : LogicalType → Value → Bool
  | id, .integer _ | serial, .integer _ | integer, .integer _ => true
  | float, .float _ | decimal, .float _ => true
  | boolean, .bool _ => true
  | binary, .binary _ => true
  | string, .text _ | text, .text _ | date, .text _ | time, .text _ | datetime, .text _
  | uuid, .text _ => true
  | _, _ => false

variable {v w : Value}

theorem exists_integer_of_cast (h : castInteger? v = some w) : ∃ n, w = .integer n := by
  cases v with
  | bool b => cases h; exact ⟨_, rfl⟩
  | integer n => cases h; exact ⟨_, rfl⟩
  | float x =>
      obtain ⟨n, -, rfl⟩ := Option.map_eq_some_iff.mp h
      exact ⟨_, rfl⟩
  | text s =>
      obtain ⟨n, -, rfl⟩ := Option.map_eq_some_iff.mp h
      exact ⟨_, rfl⟩
  | null | binary _ | array _ => cases h

theorem exists_float_of_cast (h : castFloat? v = some w) : ∃ x, w = .float x := by
  cases v with
  | integer n => cases h; exact ⟨_, rfl⟩
  | float x => cases h; exact ⟨_, rfl⟩
  | text s =>
      obtain ⟨x, -, rfl⟩ := Option.map_eq_some_iff.mp h
      exact ⟨_, rfl⟩
  | null | bool _ | binary _ | array _ => cases h

theorem exists_bool_of_cast (h : castBool? v = some w) : ∃ b, w = .bool b := by
  cases v with
  | bool b => cases h; exact ⟨_, rfl⟩
  | integer n => cases h; exact ⟨_, rfl⟩
  | text s =>
      obtain ⟨b, -, rfl⟩ := Option.map_eq_some_iff.mp h
      exact ⟨_, rfl⟩
  | null | float _ | binary _ | array _ => cases h

theorem exists_binary_of_cast (h : castBinary? v = some w) : ∃ bytes, w = .binary bytes := by
  cases v with
  | text s => cases h; exact ⟨_, rfl⟩
  | binary bytes => cases h; exact ⟨_, rfl⟩
  | null | bool _ | integer _ | float _ | array _ => cases h

theorem exists_text_of_cast (h : castText? v = some w) : ∃ s, w = .text s := by
  cases v with
  | bool b => cases h; exact ⟨_, rfl⟩
  | integer n => cases h; exact ⟨_, rfl⟩
  | float x => cases h; exact ⟨_, rfl⟩
  | text s => cases h; exact ⟨_, rfl⟩
  | binary bytes =>
      obtain ⟨s, -, rfl⟩ := Option.map_eq_some_iff.mp h
      exact ⟨_, rfl⟩
  | null | array _ => cases h

theorem holds_of_cast? {type : LogicalType} (h : type.cast? v = some w) : type.holds w = true := by
  cases type with
  | id | serial | integer => obtain ⟨n, rfl⟩ := exists_integer_of_cast h; rfl
  | float | decimal => obtain ⟨x, rfl⟩ := exists_float_of_cast h; rfl
  | boolean => obtain ⟨b, rfl⟩ := exists_bool_of_cast h; rfl
  | binary => obtain ⟨bytes, rfl⟩ := exists_binary_of_cast h; rfl
  | string | text | date | time | datetime | uuid =>
      obtain ⟨s, rfl⟩ := exists_text_of_cast h
      rfl

theorem cast?_of_holds {type : LogicalType} (h : type.holds w = true) : type.cast? w = some w := by
  cases type with
  | id | serial | integer =>
      cases w with
      | integer n => rfl
      | _ => cases h
  | float | decimal =>
      cases w with
      | float x => rfl
      | _ => cases h
  | boolean =>
      cases w with
      | bool b => rfl
      | _ => cases h
  | binary =>
      cases w with
      | binary bytes => rfl
      | _ => cases h
  | string | text | date | time | datetime | uuid =>
      cases w with
      | text s => rfl
      | _ => cases h

end LogicalType

namespace Field

def holdsScalar (field : Field) (v : Value) : Bool :=
  field.logicalType?.all fun type => type.holds v

/-- A value has the form of a field: it is null, or as the type wants it, item by item in an array
field. -/
def Holds (field : Field) (v : Value) : Prop :=
  v = .null ∨
    if field.isArray then
      ∃ items, v = .array items ∧ ∀ item ∈ items, item = .null ∨ field.holdsScalar item = true
    else field.holdsScalar v = true

end Field

/-! ## Casting values -/

namespace Schema

variable {s : Schema} {name : String} {field : Field} {v w : Value}

theorem holdsScalar_of_castScalar (h : s.castScalar field v = .ok w) :
    field.holdsScalar w = true := by
  rw [Field.holdsScalar]
  rw [castScalar] at h
  cases htype : field.logicalType? with
  | none => rfl
  | some type =>
      simp only [htype] at h
      split at h
      next found hcast =>
          cases h
          exact LogicalType.holds_of_cast? hcast
      next => cases h

theorem castScalar_of_holdsScalar (h : field.holdsScalar w = true) :
    s.castScalar field w = .ok w := by
  rw [Field.holdsScalar] at h
  rw [castScalar]
  cases htype : field.logicalType? with
  | none => rfl
  | some type =>
      rw [htype] at h
      simp only [LogicalType.cast?_of_holds h]

theorem holds_of_castItem (h : s.castItem field v = .ok w) :
    w = .null ∨ field.holdsScalar w = true := by
  rw [castItem] at h
  split at h
  · cases h
    exact .inl rfl
  · exact .inr (holdsScalar_of_castScalar h)

theorem castItem_of_holds (h : w = .null ∨ field.holdsScalar w = true) :
    s.castItem field w = .ok w := by
  rw [castItem]
  split
  next hnull =>
      cases w with
      | null => rfl
      | _ => cases hnull
  next hnull =>
      refine castScalar_of_holdsScalar (h.resolve_left ?_)
      rintro rfl
      exact hnull rfl

theorem cast_of_field (hfield : s.field? name = some field) (v : Value) :
    s.cast name v =
      if v.isNull then .ok v
      else if field.isArray then do
        let items ← s.itemsOf field v
        return .array (← items.mapM (s.castItem field))
      else s.castScalar field v := by
  rw [cast, hfield]

theorem holds_of_cast (hfield : s.field? name = some field) (h : s.cast name v = .ok w) :
    field.Holds w := by
  rw [cast_of_field hfield] at h
  split at h
  next hnull =>
      cases h
      cases v with
      | null => exact .inl rfl
      | _ => cases hnull
  next =>
      right
      split at h
      next harray =>
          rw [if_pos harray]
          obtain ⟨items, -, h⟩ := attempt_bind_eq_ok.mp h
          obtain ⟨casts, hcasts, h⟩ := attempt_bind_eq_ok.mp h
          cases h
          refine ⟨casts, rfl, fun cast hcast => ?_⟩
          obtain ⟨item, -, hitem⟩ := exists_of_mem_right (attempt_mapM_eq_ok.mp hcasts) hcast
          exact holds_of_castItem hitem
      next harray =>
          rw [if_neg harray]
          exact holdsScalar_of_castScalar h

theorem cast_of_holds (hfield : s.field? name = some field) (h : field.Holds w) :
    s.cast name w = .ok w := by
  rw [cast_of_field hfield]
  obtain rfl | h := h
  · rfl
  · split
    next => rfl
    next =>
        split at h
        next harray =>
            obtain ⟨items, rfl, hitems⟩ := h
            have hcasts : items.mapM (s.castItem field) = .ok items := by
              rw [attempt_mapM_eq_ok, List.forall₂_same]
              exact fun item hitem => castItem_of_holds (hitems item hitem)
            rw [if_pos harray]
            exact attempt_bind_eq_ok.mpr ⟨items, rfl, attempt_bind_eq_ok.mpr ⟨items, hcasts, rfl⟩⟩
        next harray =>
            rw [if_neg harray]
            exact castScalar_of_holdsScalar h

theorem cast_cast (h : s.cast name v = .ok w) : s.cast name w = .ok w := by
  cases hfield : s.field? name with
  | none => rw [cast, hfield]
  | some field => exact cast_of_holds hfield (holds_of_cast hfield h)

/-! ## Casting rows -/

variable {row cast : Row}

theorem castPairs_castPairs {pairs casts : List (String × Value)}
    (h : s.castPairs pairs = .ok casts) : s.castPairs casts = .ok casts := by
  induction pairs generalizing casts with
  | nil =>
      cases h
      rfl
  | cons pair rest ih =>
      obtain ⟨read, others, hread, hothers, rfl⟩ := castPairs_cons h
      rw [castPairs, cast_cast hread, ih hothers]
      rfl

theorem pairs_of_castRow (h : s.castRow row = .ok cast) : s.castPairs row.pairs = .ok cast.pairs := by
  obtain ⟨casts, hcasts, h⟩ := attempt_bind_eq_ok.mp h
  cases h
  rw [hcasts, Row.pairs_ofPairs (names_castPairs hcasts ▸ row.distinct)]

theorem castRow_of_pairs (h : s.castPairs row.pairs = .ok row.pairs) : s.castRow row = .ok row := by
  rw [castRow, h]
  exact congrArg Except.ok (Row.ext (Row.pairs_ofPairs row.distinct))

theorem castRow_castRow (h : s.castRow row = .ok cast) : s.castRow cast = .ok cast :=
  castRow_of_pairs (castPairs_castPairs (pairs_of_castRow h))

theorem names_castRow (h : s.castRow row = .ok cast) : cast.names = row.names :=
  names_castPairs (pairs_of_castRow h)

/-! ## What casts settle -/

/-- A cast value has the form of its field and is cast to itself.  So a cast row, which has the
columns of the row in their order, is cast to itself, and of the entity of a cast row exactly the
fields with an undefined number in them are modified. -/
theorem cast_settles (s : Schema) :
    (∀ name v w, s.cast name v = .ok w →
      (∀ field, s.field? name = some field → field.Holds w) ∧ s.cast name w = .ok w) ∧
    (∀ row cast, s.castRow row = .ok cast →
      cast.names = row.names ∧ s.castRow cast = .ok cast ∧
      ∃ entity, s.hydrate cast = .ok entity ∧ entity.fields = cast ∧
        ∀ name, (name ∈ entity.modified ↔ (cast.get? name).any Value.holdsNaN = true) ∧
          entity.isModified name = (cast.get? name).any Value.holdsNaN) := by
  refine ⟨fun name v w h => ⟨fun field hfield => holds_of_cast hfield h, cast_cast h⟩,
    fun row cast h => ⟨names_castRow h, castRow_castRow h, .hydrated s.model cast, ?_, rfl,
      fun name => ⟨Entity.mem_modified_of_snapshot rfl, Entity.isModified_of_snapshot rfl⟩⟩⟩
  rw [hydrate, castRow_castRow h]
  rfl

def measured : Schema :=
  ((named "Series").addField { name := "id", typeName := "serial" }).addField
    { name := "points", typeName := "float", isArray := true }

def measuredRow : Row :=
  Row.ofPairs [("id", .text " 7 "),
    ("points", .array [.integer 1, .null, .float ⟨0x7ff8000000000000⟩])]

def measuredCast : Row :=
  Row.ofPairs [("id", .integer 7),
    ("points", .array [.float ⟨0x3ff0000000000000⟩, .null, .float ⟨0x7ff8000000000000⟩])]

/-- An undefined number among the items makes the column modified, and no other column is. -/
theorem cast_settles_measured :
    measured.castRow measuredRow = .ok measuredCast ∧
      measured.castRow measuredCast = .ok measuredCast ∧
      ∃ entity, measured.hydrate measuredCast = .ok entity ∧ entity.fields = measuredCast ∧
        entity.isModified "id" = false ∧ entity.isModified "points" = true := by
  have hcast : measured.castRow measuredRow = .ok measuredCast := rfl
  obtain ⟨-, hagain, entity, hentity, hfields, hmodified⟩ :=
    (cast_settles measured).2 measuredRow measuredCast hcast
  refine ⟨hcast, hagain, entity, hentity, hfields, ?_, ?_⟩
  · exact (hmodified "id").2.trans (by decide +kernel)
  · exact (hmodified "points").2.trans (by decide +kernel)

end Schema

end RecordMapper
