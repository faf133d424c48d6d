import RecordMapper.Proofs.Attempt
import RecordMapper.Registry
import RecordMapper.Schema.Cast
import RecordMapper.Session.Writing

/-!
# Causes of failures

A computation in steps fails as one of its steps does.  Stored values fail to be read, keys are
missing and names are unknown, each with an error of its own; none of them says that the data of a
relation have the wrong shape.
-/

namespace RecordMapper

variable {α β : Type} {allowed : Error → Prop}

/-- Every failure of an attempt is one of the allowed errors. -/
def FailsAs (allowed : Error → Prop) (attempt : Attempt α) : Prop :=
  ∀ error, attempt = .error error → allowed error

namespace FailsAs

theorem mono {allowed' : Error → Prop} {attempt : Attempt α} (h : FailsAs allowed attempt)
    (himp : ∀ error, allowed error → allowed' error) : FailsAs allowed' attempt :=
  fun error herror => himp error (h error herror)

@[simp] theorem ok (a : α) : FailsAs allowed (.ok a) :=
  fun _ h => by cases h

@[simp] theorem pure (a : α) : FailsAs allowed (Pure.pure a) :=
  ok a

@[simp] theorem error_iff {error : Error} :
    FailsAs allowed (.error error : Attempt α) ↔ allowed error := by
  constructor
  · exact fun h => h error rfl
  · rintro h _ ⟨⟩
    exact h

theorem of_error {error : Error} (h : FailsAs allowed (.error error : Attempt α)) :
    FailsAs allowed (.error error : Attempt β) :=
  error_iff.mpr (error_iff.mp h)

@[simp] theorem bind_iff {attempt : Attempt α} {next : α → Attempt β} :
    FailsAs allowed (attempt >>= next) ↔
      FailsAs allowed attempt ∧ ∀ a, attempt = .ok a → FailsAs allowed (next a) := by
  cases attempt with
  | error error =>
      change FailsAs allowed (.error error) ↔ _
      simp
  | ok a =>
      change FailsAs allowed (next a) ↔ _
      simp

@[simp] theorem map_iff {f : α → β} {attempt : Attempt α} :
    FailsAs allowed (f <$> attempt) ↔ FailsAs allowed attempt := by
  rw [← bind_pure_comp, bind_iff]
  simp

@[simp] theorem ite_iff {c : Prop} [Decidable c] {first second : Attempt α} :
    FailsAs allowed (if c then first else second) ↔
      (c → FailsAs allowed first) ∧ (¬ c → FailsAs allowed second) := by
  split <;> simp_all

theorem mapM {f : α → Attempt β} {items : List α} (h : ∀ a ∈ items, FailsAs allowed (f a)) :
    FailsAs allowed (items.mapM f) := by
  induction items with
  | nil => exact ok []
  | cons a rest ih =>
      rw [List.forall_mem_cons] at h
      rw [List.mapM_cons]
      simp [h.1, ih h.2]

end FailsAs

namespace Error

def IsOf (kind : ErrorKind) (error : Error) : Prop :=
  error.kind = kind

def isShape : Error → Bool
  | relationShape _ _ _ => true
  | _ => false

theorem isShape_of_isOf {kind : ErrorKind} {error : Error} (hkind : kind ≠ .configuration)
    (h : error.IsOf kind) : error.isShape = false := by
  cases error with
  | relationShape model relation expected => exact absurd h.symm hkind
  | _ => rfl

end Error

/-! ## Stored values -/

namespace Schema

variable (s : Schema) (field : Field)

/-- A stored value fails only because it does not fit its field. -/
abbrev Fits (cast : Attempt α) : Prop :=
  FailsAs (Error.IsOf .mapping) cast

theorem fits_castScalar (value : Value) : Fits (s.castScalar field value) := by
  unfold castScalar
  split
  · exact FailsAs.ok _
  · split
    · exact FailsAs.ok _
    · exact FailsAs.error_iff.mpr rfl

theorem fits_castItem (item : Value) : Fits (s.castItem field item) := by
  simp [castItem, fits_castScalar]

theorem fits_itemsOf (value : Value) : Fits (s.itemsOf field value) := by
  unfold itemsOf
  split
  · exact FailsAs.ok _
  · exact FailsAs.ok _
  · exact FailsAs.error_iff.mpr rfl

theorem fits_cast (name : String) (value : Value) : Fits (s.cast name value) := by
  unfold Schema.cast
  split
  · exact FailsAs.ok _
  next field _ =>
    simp [fits_itemsOf, fits_castScalar, FailsAs.mapM fun item _ => s.fits_castItem field item]

theorem fits_castPairs (pairs : List (String × Value)) : Fits (s.castPairs pairs) := by
  induction pairs with
  | nil => exact FailsAs.ok []
  | cons pair rest ih => simp [castPairs, fits_cast, ih]

theorem fits_castRow (row : Row) : Fits (s.castRow row) := by
  simp [castRow, fits_castPairs]

end Schema

/-! ## Errors that are not about shapes -/

/-- The attempt does not fail over the shape of a relation. -/
abbrev ShapeSafe (attempt : Attempt α) : Prop :=
  FailsAs (fun error => error.isShape = false) attempt

theorem not_shapeSafe (model relation expected : String) :
    ¬ ShapeSafe (.error (.relationShape model relation expected) : Attempt α) := by
  simp [Error.isShape]

theorem shapeSafe_of_isOf {kind : ErrorKind} {attempt : Attempt α} (hkind : kind ≠ .configuration)
    (h : FailsAs (Error.IsOf kind) attempt) : ShapeSafe attempt :=
  h.mono fun _ => Error.isShape_of_isOf hkind

theorem Schema.shapeSafe_castRow (s : Schema) (row : Row) : ShapeSafe (s.castRow row) :=
  shapeSafe_of_isOf (by decide) (s.fits_castRow row)

namespace Entity

variable (entity : Entity)

theorem shapeSafe_requireKey (key model relation : String) :
    ShapeSafe (entity.requireKey key model relation) := by
  unfold requireKey
  split
  · split
    · exact FailsAs.error_iff.mpr rfl
    · exact FailsAs.ok _
  · exact FailsAs.error_iff.mpr rfl

theorem shapeSafe_storedKey (key model : String) : ShapeSafe (entity.storedKey key model) := by
  unfold storedKey
  split
  · split
    · exact FailsAs.error_iff.mpr rfl
    · exact FailsAs.ok _
  · exact FailsAs.error_iff.mpr rfl

theorem shapeSafe_matchCondition (relation : Relation) :
    ShapeSafe (relation.matchCondition entity) := by
  simp [Relation.matchCondition, shapeSafe_requireKey]

end Entity

/-! ## Resolving relations -/

def Error.isUnresolved : Error → Bool
  | modelUnknown _ | ruleUnknown _ | relationOptionMissing _ _ | routeNotToPivot _ _ => true
  | _ => false

theorem Error.isShape_of_isUnresolved {error : Error} (h : error.isUnresolved = true) :
    error.isShape = false := by
  cases error with
  | relationShape model relation expected => cases h
  | _ => rfl

namespace Registry

variable (registry : Registry)

/-- A step of a resolution fails only over the names that it needs. -/
abbrev Names (attempt : Attempt α) : Prop :=
  FailsAs (fun error => error.isUnresolved = true) attempt

theorem shapeSafe_of_names {attempt : Attempt α} (h : Names attempt) : ShapeSafe attempt :=
  h.mono fun _ => Error.isShape_of_isUnresolved

theorem names_schema (model : String) : Names (registry.schema model) := by
  unfold Registry.schema
  split
  · exact FailsAs.ok _
  · exact FailsAs.error_iff.mpr rfl

theorem names_apply (naming : Naming) (rule subject : String) :
    Names (naming.apply rule subject) := by
  unfold Naming.apply
  split
  · exact FailsAs.ok _
  · exact FailsAs.error_iff.mpr rfl

theorem names_correlateOf (naming : Naming) (model : String) (options : RelationOptions) :
    Names (correlateOf naming model options) := by
  unfold correlateOf
  split
  · exact FailsAs.ok _
  · exact names_apply naming _ model

theorem names_defaultKeys (naming : Naming) (kind : TieKind) (owner target : Schema) :
    Names (defaultKeys naming kind owner target) := by
  unfold defaultKeys Naming.foreignKey
  cases kind <;> simp [names_apply]

theorem names_resolveTie (owner : Schema) (name correlate : String) (kind : TieKind)
    (options : TieOptions) : Names (registry.resolveTie owner name correlate kind options) := by
  unfold resolveTie
  cases options.keys <;> simp [names_schema, names_defaultKeys]

theorem names_validate (options : RouteOptions) (name : String) :
    Names (options.validate name) := by
  have hmissing : ∀ option, (Error.relationOptionMissing name option).isUnresolved = true :=
    fun _ => rfl
  simp [RouteOptions.validate, hmissing]

theorem names_pivotTie (name route : String) (relation : Relation) :
    Names (pivotTie name route relation) := by
  have hroute : (Error.routeNotToPivot route name).isUnresolved = true := rfl
  cases relation <;> simp [pivotTie, hroute]

theorem shapeSafe_schema (model : String) : ShapeSafe (registry.schema model) :=
  shapeSafe_of_names (registry.names_schema model)

theorem shapeSafe_resolve (fuel : Nat) (model name : String) :
    ShapeSafe (registry.resolve fuel model name) := by
  induction fuel generalizing model name with
  | zero => exact FailsAs.error_iff.mpr rfl
  | succ fuel ih =>
      rw [resolve]
      refine FailsAs.bind_iff.mpr ⟨registry.shapeSafe_schema model, fun owner _ => ?_⟩
      cases owner.relation? name with
      | none => exact FailsAs.error_iff.mpr rfl
      | some decl =>
          refine FailsAs.bind_iff.mpr ⟨FailsAs.ok decl, fun decl _ => ?_⟩
          refine FailsAs.bind_iff.mpr ⟨shapeSafe_of_names (names_correlateOf registry.naming model
            decl.options), fun correlate _ => ?_⟩
          cases decl.options with
          | tie kind options => simp [shapeSafe_of_names (registry.names_resolveTie _ _ _ _ _)]
          | route options =>
              have hvalid := shapeSafe_of_names (names_validate options name)
              have hpivot := fun relation =>
                shapeSafe_of_names (names_pivotTie name options.through relation)
              simp [hvalid, hpivot, ih]

theorem shapeSafe_relation (model name : String) : ShapeSafe (registry.relation model name) :=
  registry.shapeSafe_resolve _ model name

end Registry

end RecordMapper
