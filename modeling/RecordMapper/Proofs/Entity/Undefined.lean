import RecordMapper.Entity
import RecordMapper.Proofs.Rows
import RecordMapper.Proofs.Value.Equality

/-!
# Undefined numbers

The word for no number equals nothing, not even itself.  A value equals itself if and only if no such
word is in it, however deep in arrays.  So in an entity that agrees with its stored row, the modified
fields are those with an undefined number.
-/

namespace RecordMapper

namespace Value

mutual

/-- Whether a value is the word for no number, or an array with it. -/
def holdsNaN : Value → Bool
  | float x => x.isNaN
  | array items => anyHoldsNaN items
  | _ => false

def anyHoldsNaN : List Value → Bool
  | [] => false
  | item :: rest => holdsNaN item || anyHoldsNaN rest

end

mutual

theorem equals_self : (v : Value) → v.equals v = !v.holdsNaN
  | float x => by simp [equals, holdsNaN, Binary64.equals]
  | array items => equalsAll_self items
  | null => rfl
  | bool _ | integer _ | text _ | binary _ => beq_self_eq_true _

theorem equalsAll_self : (items : List Value) → equalsAll items items = !anyHoldsNaN items
  | [] => rfl
  | item :: rest => by
      rw [equalsAll, equals_self item, equalsAll_self rest, anyHoldsNaN, Bool.not_or]

end

theorem equalsOption_self (v? : Option Value) :
    equalsOption v? v? = !v?.any holdsNaN := by
  cases v? with
  | none => rfl
  | some v => exact equals_self v

theorem equals_comm (a b : Value) : a.equals b = b.equals a :=
  Bool.eq_iff_iff.mpr ⟨equals_symm a b, equals_symm b a⟩

theorem equalsOption_comm (a? b? : Option Value) : equalsOption a? b? = equalsOption b? a? := by
  cases a? with
  | none => cases b? <;> rfl
  | some a =>
      cases b? with
      | none => rfl
      | some b => exact equals_comm a b

end Value

namespace Entity

variable {entity : Entity} {name : String}

theorem mem_modified_iff : name ∈ entity.modified ↔
    ∃ value, entity.get? name = some value ∧ entity.isModified name = true := by
  have hmem : ∀ value, (name, value) ∈ entity.fields.pairs ↔ entity.get? name = some value :=
    fun _ => Row.get?_eq_some_iff.symm
  rw [modified, isModified]
  cases entity.snapshot with
  | none =>
      rw [Row.names, List.mem_map]
      constructor
      · rintro ⟨⟨_, value⟩, hpair, rfl⟩
        have hvalue := (hmem value).mp hpair
        exact ⟨value, hvalue, by rw [Row.contains]; exact Option.isSome_of_eq_some hvalue⟩
      · rintro ⟨value, hvalue, -⟩
        exact ⟨(name, value), (hmem value).mpr hvalue, rfl⟩
  | some row =>
      simp only [List.mem_map, Value.equalsOption_comm (row.get? _)]
      constructor
      · rintro ⟨⟨_, value⟩, hpair, rfl⟩
        obtain ⟨hpair, hdiffers⟩ := List.mem_filter.mp hpair
        have hvalue := (hmem value).mp hpair
        exact ⟨value, hvalue, hvalue ▸ hdiffers⟩
      · rintro ⟨value, hvalue, hdiffers⟩
        rw [hvalue] at hdiffers
        exact ⟨(name, value), List.mem_filter.mpr ⟨(hmem value).mpr hvalue, hdiffers⟩, rfl⟩

theorem isModified_of_snapshot (h : entity.snapshot = some entity.fields) :
    entity.isModified name = (entity.get? name).any Value.holdsNaN := by
  rw [isModified, h]
  change (!Value.equalsOption (entity.get? name) (entity.get? name)) = _
  rw [Value.equalsOption_self, Bool.not_not]

theorem mem_modified_of_snapshot (h : entity.snapshot = some entity.fields) :
    name ∈ entity.modified ↔ (entity.get? name).any Value.holdsNaN = true := by
  rw [mem_modified_iff, isModified_of_snapshot h]
  constructor
  · exact fun ⟨_, _, hundefined⟩ => hundefined
  · intro hundefined
    obtain ⟨value, hvalue, -⟩ := (Option.any_eq_true _ _).mp hundefined
    exact ⟨value, hvalue, hundefined⟩

end Entity

end RecordMapper
