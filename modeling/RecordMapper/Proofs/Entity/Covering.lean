import RecordMapper.Entity.Collection
import RecordMapper.Proofs.Rows
import RecordMapper.Proofs.Value.Equality

/-!
# Entities that cover others

An entity covers another one if it has all its values, each perhaps in another form that is equal.
What follows from the keys of values then holds for both.
-/

namespace RecordMapper

namespace Value

/-- The values are one, or equal.  Unlike equality this holds of an undefined number and itself. -/
def Same (a b : Value) : Prop :=
  a = b ∨ a.equals b = true

variable {a b c : Value}

theorem same_refl (a : Value) : a.Same a :=
  .inl rfl

theorem same_of_equals (h : a.equals b = true) : a.Same b :=
  .inr h

theorem equals_of_same (hab : a.equals b = true) (hbc : b.Same c) : a.equals c = true := by
  cases hbc with
  | inl h => exact h ▸ hab
  | inr h => exact equals_trans a b c hab h

theorem same_trans (hab : a.Same b) (hbc : b.Same c) : a.Same c := by
  cases hab with
  | inl h => exact h ▸ hbc
  | inr h => exact .inr (equals_of_same h hbc)

theorem equals_of_same_left (hab : a.Same b) (hac : a.equals c = true) : b.equals c = true := by
  cases hab with
  | inl h => exact h ▸ hac
  | inr h => exact equals_trans b a c (equals_symm a b h) hac

theorem key?_eq_of_same (h : a.Same b) : a.key? = b.key? := by
  cases h with
  | inl h => rw [h]
  | inr h => exact key?_eq_of_equals a b h

theorem isNull_eq_of_same (h : a.Same b) : a.isNull = b.isNull := by
  cases h with
  | inl h => rw [h]
  | inr h =>
      cases a <;> cases b <;> first | rfl | cases h

end Value

namespace Related

/-- The entities of a relation. -/
def entities : Related → List Entity
  | one (some entity) => [entity]
  | one none => []
  | many collection => collection.entities
  | through => []

end Related

namespace Entity

def attached (entity : Entity) (name : String) : List Entity :=
  match entity.relation? name with
  | some related => related.entities
  | none => []

theorem attached_of_relation? {entity : Entity} {name : String} {related : Related}
    (h : entity.relation? name = some related) : entity.attached name = related.entities := by
  rw [attached, h]

theorem relation?_of_relations {entity entity' : Entity} (h : entity'.relations = entity.relations)
    (name : String) : entity'.relation? name = entity.relation? name := by
  rw [relation?, relation?, h]

theorem attached_of_relations {entity entity' : Entity} (h : entity'.relations = entity.relations)
    (name : String) : entity'.attached name = entity.attached name := by
  rw [attached, attached, relation?_of_relations h]

theorem attached_setRelation (entity : Entity) (name other : String) (related : Related) :
    (entity.setRelation name related).attached other =
      if other = name then related.entities else entity.attached other := by
  rw [attached, relation?_setRelation]
  by_cases h : other = name
  · simp [h]
  · simp [h, attached]

theorem attached_setRelation_self (entity : Entity) (name : String) (related : Related) :
    (entity.setRelation name related).attached name = related.entities :=
  (attached_setRelation entity name name related).trans (if_pos rfl)

theorem setRelation_setRelation (entity : Entity) (name : String) (related related' : Related) :
    (entity.setRelation name related).setRelation name related' =
      entity.setRelation name related' := by
  simp only [setRelation, insertPair_insertPair]

theorem isLoaded_setRelation {entity : Entity} {name : String} (h : entity.isLoaded name = true)
    (other : String) (related : Related) :
    (entity.setRelation name related).isLoaded other = entity.isLoaded other := by
  rw [isLoaded, relation?_setRelation]
  by_cases hother : other = name
  · rw [if_pos hother, hother, h]
    rfl
  · rw [if_neg hother]
    rfl

theorem relation?_of_one {entity : Entity} {name : String} {related? : Option Entity}
    (h : entity.one name = .ok related?) : entity.relation? name = some (.one related?) := by
  unfold one relation at h
  cases hrelation : entity.relation? name with
  | none =>
      rw [hrelation] at h
      cases h
  | some found =>
      rw [hrelation] at h
      cases found with
      | one entity? =>
          cases h
          rfl
      | many collection => cases h
      | through => cases h

theorem relation?_of_many {entity : Entity} {name : String} {collection : Collection}
    (h : entity.many name = .ok collection) :
    entity.relation? name = some (.many collection) := by
  unfold many relation at h
  cases hrelation : entity.relation? name with
  | none =>
      rw [hrelation] at h
      cases h
  | some found =>
      rw [hrelation] at h
      cases found with
      | one entity? => cases h
      | many collection =>
          cases h
          rfl
      | through => cases h

theorem one_of_relation? {entity : Entity} {name : String} {related? : Option Entity}
    (h : entity.relation? name = some (.one related?)) : entity.one name = .ok related? := by
  rw [one, relation, h]
  rfl

theorem many_of_relation? {entity : Entity} {name : String} {collection : Collection}
    (h : entity.relation? name = some (.many collection)) :
    entity.many name = .ok collection := by
  rw [many, relation, h]
  rfl

theorem isLoaded_of_relation? {entity : Entity} {name : String} {related : Related}
    (h : entity.relation? name = some related) : entity.isLoaded name = true := by
  rw [isLoaded, h]
  rfl

/-! ## Values -/

def Covers (entity entity' : Entity) : Prop :=
  ∀ field value, entity.get? field = some value →
    ∃ value', entity'.get? field = some value' ∧ value.Same value'

variable {entity entity' : Entity}

theorem covers_refl (entity : Entity) : entity.Covers entity :=
  fun _ value h => ⟨value, h, value.same_refl⟩

theorem covers_trans {entity'' : Entity} (h : entity.Covers entity')
    (h' : entity'.Covers entity'') : entity.Covers entity'' := by
  intro field value hvalue
  obtain ⟨value', hvalue', hsame⟩ := h field value hvalue
  obtain ⟨value'', hvalue'', hsame'⟩ := h' field value' hvalue'
  exact ⟨value'', hvalue'', Value.same_trans hsame hsame'⟩

theorem fieldKey?_of_covers (h : entity.Covers entity') {field : String}
    (hvalue : (entity.get? field).isSome = true) :
    entity'.fieldKey? field = entity.fieldKey? field := by
  obtain ⟨value, hvalue⟩ := Option.isSome_iff_exists.mp hvalue
  obtain ⟨value', hvalue', hsame⟩ := h field value hvalue
  rw [fieldKey?, fieldKey?, hvalue, hvalue']
  exact (Value.key?_eq_of_same hsame).symm

theorem isSome_of_fieldKey? {field : String} {key : Key} (h : entity.fieldKey? field = some key) :
    (entity.get? field).isSome = true := by
  rw [fieldKey?] at h
  cases hvalue : entity.get? field with
  | none =>
      rw [hvalue] at h
      cases h
  | some value => rfl

theorem fieldKey?_eq_of_covers (h : entity.Covers entity') {field : String} {key : Key}
    (hkey : entity.fieldKey? field = some key) : entity'.fieldKey? field = some key := by
  rw [fieldKey?_of_covers h (isSome_of_fieldKey? hkey), hkey]

theorem covers_set {field : String} {value value' : Value} (h : entity.get? field = some value)
    (hsame : value.Same value') : entity.Covers (entity.set field value') := by
  intro other found hfound
  rw [get?_set]
  by_cases hother : other = field
  · rw [if_pos hother]
    rw [hother, h] at hfound
    cases hfound
    exact ⟨value', rfl, hsame⟩
  · rw [if_neg hother]
    exact ⟨found, hfound, found.same_refl⟩

theorem get?_adopt (entity : Entity) (row : Row) (key : Option String) (field : String) :
    (entity.adopt row key).get? field =
      if some field = key then row.get? field else (entity.get? field).or (row.get? field) := by
  have hnames : ((entity.fields.pairs.filter fun pair => some pair.1 ≠ key).map Prod.fst).Nodup :=
    entity.fields.distinct.sublist ((List.filter_sublist).map Prod.fst)
  have hget : (entity.adopt row key).get? field =
      ((entity.fields.pairs.filter fun pair => some pair.1 ≠ key).lookup field).or
        (row.get? field) := Row.get?_insertAll hnames row field
  rw [hget]
  cases key with
  | none =>
      have hall : entity.fields.pairs.filter (fun pair => some pair.1 ≠ none) =
          entity.fields.pairs := List.filter_eq_self.mpr fun _ _ => by simp
      rw [hall, if_neg (by simp)]
      rfl
  | some column =>
      have herase : (entity.fields.pairs.filter fun pair => some pair.1 ≠ some column) =
          erasePair column entity.fields.pairs := by simp [erasePair]
      rw [herase, lookup_erasePair]
      by_cases hfield : field = column
      · simp [hfield]
      · simp only [hfield, if_false, Option.some.injEq]
        rfl

/-! ## Keys -/

def Joined (entity : Entity) (field : String) (other : Entity) (otherField : String) : Prop :=
  ∃ value otherValue, entity.get? field = some value ∧ other.get? otherField = some otherValue ∧
    value.equals otherValue = true

theorem joined_of_covers {other other' : Entity} {field otherField : String}
    (h : entity.Joined field other otherField) (hentity : entity.Covers entity')
    (hother : other.Covers other') : entity'.Joined field other' otherField := by
  obtain ⟨value, otherValue, hvalue, hotherValue, hequals⟩ := h
  obtain ⟨value', hvalue', hsame⟩ := hentity field value hvalue
  obtain ⟨otherValue', hotherValue', hotherSame⟩ := hother otherField otherValue hotherValue
  have hequals' : value'.equals otherValue = true := Value.equals_of_same_left hsame hequals
  exact ⟨value', otherValue', hvalue', hotherValue', Value.equals_of_same hequals' hotherSame⟩

theorem get?_of_requireKey {entity : Entity} {key model relation : String} {value : Value}
    (h : entity.requireKey key model relation = .ok value) :
    entity.get? key = some value ∧ value.isNull = false := by
  unfold requireKey at h
  cases hvalue : entity.get? key with
  | none =>
      rw [hvalue] at h
      cases h
  | some found =>
      rw [hvalue] at h
      cases hnull : found.isNull with
      | true => simp [hnull] at h
      | false =>
          simp only [hnull, Bool.false_eq_true, if_false] at h
          cases h
          exact ⟨rfl, hnull⟩

end Entity

end RecordMapper
