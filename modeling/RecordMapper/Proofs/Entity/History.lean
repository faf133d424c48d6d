import Mathlib.Data.List.Induction
import RecordMapper.Proofs.Entity.Covering
import RecordMapper.Proofs.Entity.Undefined

/-!
# Modified fields over a history

An entity begins new or with a stored row, and is then changed.  `modified` lists the fields of the entity
that differ from the stored row, and `isModified` tests one field.  The test sees a field of the stored row
that the entity has no value for, and the list does not.  `modified_agrees_iff` says when there is such a
field: it was unset, and since then neither was it set nor did the entity take, drop or become a stored row.
-/

namespace RecordMapper

namespace Entity

/-! ## Histories -/

/-- How an entity begins. -/
inductive Origin
  | new (model : String)
  | hydrated (model : String) (row : Row)

/-- A change of the fields of an entity, or of the row behind it. -/
inductive Change
  | set (field : String) (value : Value)
  | unset (field : String)
  | markStored
  | resetNew (key : Option String)
  | adopt (row : Row) (key : Option String)

def Change.apply (entity : Entity) : Change → Entity
  | .set field value => entity.set field value
  | .unset field => entity.unset field
  | .markStored => entity.markStored
  | .resetNew key => entity.resetNew key
  | .adopt row key => entity.adopt row key

def Change.Settles (name : String) : Change → Prop
  | .set field _ => field = name
  | .unset _ => False
  | .markStored | .resetNew _ | .adopt _ _ => True

namespace Origin

def entity : Origin → Entity
  | .new model => .new model
  | .hydrated model row => .hydrated model row

/-- The entity after some changes. -/
def after (origin : Origin) (changes : List Change) : Entity :=
  changes.foldl Change.apply origin.entity

/-- A field of the stored row was unset, and nothing has settled it since. -/
def Drops (origin : Origin) (changes : List Change) (name : String) : Prop :=
  ∃ before later, changes = before ++ .unset name :: later ∧
    ((origin.after before).stored? name).isSome = true ∧ ∀ change ∈ later, ¬ change.Settles name

variable {origin : Origin} {changes : List Change} {name : String}

theorem after_append_singleton (change : Change) :
    origin.after (changes ++ [change]) = change.apply (origin.after changes) := by
  rw [after, List.foldl_append]
  rfl

/-- A field is dropped by the last change, or it was before and the last change does not settle it. -/
theorem drops_append_singleton (change : Change) :
    origin.Drops (changes ++ [change]) name ↔
      (change = .unset name ∧ ((origin.after changes).stored? name).isSome = true) ∨
      (¬ change.Settles name ∧ origin.Drops changes name) := by
  constructor
  · rintro ⟨before, later, hchanges, hstored, hlater⟩
    rcases List.eq_nil_or_concat later with rfl | ⟨later, last, rfl⟩
    · obtain ⟨rfl, hlast⟩ := List.append_inj' hchanges rfl
      cases hlast
      exact .inl ⟨rfl, hstored⟩
    · have hsplit : changes ++ [change] = (before ++ .unset name :: later) ++ [last] := by
        simpa using hchanges
      obtain ⟨rfl, hlast⟩ := List.append_inj' hsplit rfl
      cases hlast
      rw [List.concat_eq_append] at hlater
      refine .inr ⟨hlater _ (by simp), before, later, rfl, hstored, fun other hother => ?_⟩
      exact hlater other (List.mem_append_left _ hother)
  · rintro (⟨rfl, hstored⟩ | ⟨hsettles, before, later, rfl, hstored, hlater⟩)
    · exact ⟨changes, [], rfl, hstored, List.forall_mem_nil _⟩
    · refine ⟨before, later ++ [change], by simp, hstored, fun other hother => ?_⟩
      rcases List.mem_append.mp hother with hother | hother
      · exact hlater other hother
      · rwa [List.mem_singleton.mp hother]

end Origin

/-! ## Fields that are lacking -/

variable {entity : Entity} {name : String}

def Lacks (entity : Entity) (name : String) : Prop :=
  (entity.stored? name).isSome = true ∧ entity.get? name = none

theorem not_lacks_of_stored?_eq (h : entity.stored? name = entity.get? name) :
    ¬ entity.Lacks name := by
  rintro ⟨hstored, hvalue⟩
  rw [h, hvalue] at hstored
  cases hstored

theorem not_lacks_of_get? {value : Value} (h : entity.get? name = some value) :
    ¬ entity.Lacks name := by
  rintro ⟨-, hvalue⟩
  rw [h] at hvalue
  cases hvalue

theorem not_lacks_of_new (h : entity.snapshot = none) : ¬ entity.Lacks name := by
  rintro ⟨hstored, -⟩
  rw [stored?, h] at hstored
  cases hstored

theorem not_lacks_adopt (row : Row) (key : Option String) : ¬ (entity.adopt row key).Lacks name := by
  rintro ⟨hstored, hvalue⟩
  rw [get?_adopt] at hvalue
  have hrow : row.get? name = none := by
    split at hvalue
    · exact hvalue
    · exact (Option.or_eq_none_iff.mp hvalue).2
  have hstored? : (entity.adopt row key).stored? name = row.get? name := rfl
  rw [hstored?, hrow] at hstored
  cases hstored

theorem lacks_apply (change : Change) : (change.apply entity).Lacks name ↔
    (change = .unset name ∧ (entity.stored? name).isSome = true) ∨
      (¬ change.Settles name ∧ entity.Lacks name) := by
  cases change with
  | set field value =>
      by_cases hfield : field = name
      · have hvalue : (entity.set field value).get? name = some value := by
          rw [get?_set, if_pos hfield.symm]
        simp [Change.apply, Change.Settles, hfield, not_lacks_of_get? (hfield ▸ hvalue)]
      · have hvalue : (entity.set field value).get? name = entity.get? name := by
          rw [get?_set, if_neg (Ne.symm hfield)]
        have hlacks : (entity.set field value).Lacks name ↔ entity.Lacks name := by
          rw [Lacks, hvalue]
          rfl
        simp [Change.apply, Change.Settles, hfield, hlacks]
  | unset field =>
      have hstored : (entity.unset field).stored? name = entity.stored? name := rfl
      rw [Change.apply, Lacks, hstored, get?_unset]
      by_cases hfield : field = name
      · simp only [Change.Settles, Lacks, hfield, if_true, and_true, true_and, not_false_eq_true]
        exact (or_iff_left_of_imp And.left).symm
      · simp [Change.Settles, Lacks, hfield, Ne.symm hfield]
  | markStored =>
      simpa [Change.apply, Change.Settles] using not_lacks_of_stored?_eq rfl
  | resetNew key => simpa [Change.apply, Change.Settles] using not_lacks_of_new rfl
  | adopt row key => simpa [Change.apply, Change.Settles] using not_lacks_adopt row key

theorem not_lacks_origin (origin : Origin) : ¬ origin.entity.Lacks name := by
  cases origin with
  | new _ => exact not_lacks_of_new rfl
  | hydrated _ _ => exact not_lacks_of_stored?_eq rfl

/-- Along a history, the fields that are lacking are those that were dropped. -/
theorem lacks_after (origin : Origin) (changes : List Change) :
    (origin.after changes).Lacks name ↔ origin.Drops changes name := by
  induction changes using List.reverseRecOn with
  | nil =>
      refine iff_of_false (not_lacks_origin origin) ?_
      rintro ⟨before, later, hchanges, -⟩
      simp at hchanges
  | append_singleton changes change ih =>
      rw [origin.after_append_singleton, lacks_apply, origin.drops_append_singleton, ih]

/-! ## The list and the test -/

theorem isModified_of_get?_eq_none (h : entity.get? name = none) :
    entity.isModified name = (entity.stored? name).isSome := by
  cases hsnapshot : entity.snapshot with
  | none =>
      have hfields : entity.fields.get? name = none := h
      simp only [isModified, stored?, hsnapshot, Row.contains, hfields, Option.bind_none,
        Option.isSome_none]
  | some row =>
      simp only [isModified, stored?, hsnapshot, h, Option.bind_some]
      cases row.get? name with
      | none => rfl
      | some value => rfl

theorem isModified_iff :
    entity.isModified name = true ↔ name ∈ entity.modified ∨ entity.Lacks name := by
  rw [mem_modified_iff]
  cases hvalue : entity.get? name with
  | none => simp [Lacks, hvalue, isModified_of_get?_eq_none hvalue]
  | some value => simp [Lacks, hvalue]

theorem notMem_modified_of_lacks (h : entity.Lacks name) : name ∉ entity.modified := by
  intro hmem
  obtain ⟨value, hvalue, -⟩ := mem_modified_iff.mp hmem
  exact not_lacks_of_get? hvalue h

/-- After any history, every listed field is one that the test sees, and the two agree on a field if and
only if it was not dropped. -/
theorem modified_agrees_iff (origin : Origin) (changes : List Change) (name : String) :
    (name ∈ (origin.after changes).modified → (origin.after changes).isModified name = true) ∧
      (((origin.after changes).isModified name = true ↔ name ∈ (origin.after changes).modified) ↔
        ¬ origin.Drops changes name) := by
  rw [← lacks_after, isModified_iff]
  refine ⟨.inl, ⟨fun hagree hlacks => ?_, fun hlacks => or_iff_left hlacks⟩⟩
  exact notMem_modified_of_lacks hlacks (hagree.mp (.inr hlacks))

/-- The name of a stored gallery that is unset is modified, but it is not listed. -/
theorem modified_misses_unset_name :
    let gallery := Origin.after (.hydrated "Gallery" (.ofPairs
      [("id", .integer 1), ("name", .text "Foo")])) [.unset "name"]
    gallery.isModified "name" = true ∧ gallery.modified = [] :=
  ⟨by rfl, by rfl⟩

end Entity

end RecordMapper
