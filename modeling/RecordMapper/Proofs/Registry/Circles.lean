import Mathlib.Data.List.Chain
import Mathlib.Data.List.Perm.Subperm
import Mathlib.Logic.Relation
import RecordMapper.Proofs.Failures
import RecordMapper.Proofs.Registry

/-!
# Circles of routes

A route is resolved after the two relations that it leads over.  The resolution fails to end only in
a circle of such steps: without one, no chain of steps is longer than the list of all declarations,
and `resolve_eq_relation` says that more fuel changes nothing.
-/

namespace RecordMapper

namespace Registry

variable {registry : Registry}

def Declares (registry : Registry) (model name : String) (options : RelationOptions) : Prop :=
  ∃ schema decl, registry.schema model = .ok schema ∧ schema.relation? name = some decl ∧
    decl.options = options

/-- A declared route leads over another relation, to the pivot or on from there. -/
inductive LeadsOver (registry : Registry) : String × String → String × String → Prop
  | toPivot {model name : String} {options : RouteOptions}
      (h : registry.Declares model name (.route options)) :
      registry.LeadsOver (model, name) (model, options.through)
  | onward {model name : String} {options : RouteOptions} {kind : TieKind} {pivot : TieOptions}
      (h : registry.Declares model name (.route options))
      (hpivot : registry.Declares model options.through (.tie kind pivot))
      (hkind : kind ≠ .belongsTo) :
      registry.LeadsOver (model, name) (pivot.target, options.far)

/-- No relation leads over itself, at any distance. -/
def CircleFree (registry : Registry) : Prop :=
  ∀ relation, ¬ Relation.TransGen registry.LeadsOver relation relation

theorem circleFree_of_rank (rank : String × String → Nat)
    (h : ∀ relation next, registry.LeadsOver relation next → rank next < rank relation) :
    registry.CircleFree := by
  have hdown : ∀ relation other, Relation.TransGen registry.LeadsOver relation other →
      rank other < rank relation := by
    intro relation other hsteps
    induction hsteps with
    | single hstep => exact h _ _ hstep
    | tail _ hstep ih => exact (h _ _ hstep).trans ih
  exact fun relation hcircle => Nat.lt_irrefl _ (hdown relation relation hcircle)

def declared (registry : Registry) : List (String × String) :=
  registry.schemas.flatMap fun schema => schema.relations.map fun decl => (schema.model, decl.name)

theorem length_declared (registry : Registry) :
    registry.declared.length = registry.declaredRelations := by
  unfold declared declaredRelations
  rw [List.length_flatMap]
  simp only [List.length_map]
  rfl

theorem mem_declared {model name : String} {options : RelationOptions}
    (h : registry.Declares model name options) : (model, name) ∈ registry.declared := by
  obtain ⟨schema, decl, hschema, hdecl, -⟩ := h
  have hmem : decl ∈ schema.relations := List.mem_of_find?_eq_some hdecl
  have hname : decl.name = name := by simpa using List.find?_some hdecl
  refine List.mem_flatMap.mpr ⟨schema, mem_schemas_of_schema hschema, List.mem_map.mpr ?_⟩
  exact ⟨decl, hmem, by rw [model_of_schema hschema, hname]⟩

/-! ## Resolutions that run out of fuel -/

/-- The attempt found a circle of routes. -/
def Circular {α : Type} (attempt : Attempt α) : Prop :=
  ∃ model name, attempt = .error (.routeCircular model name)

theorem circular_bind {α β : Type} {attempt : Attempt α} {next : α → Attempt β}
    (h : Circular (attempt >>= next)) :
    Circular attempt ∨ ∃ a, attempt = .ok a ∧ Circular (next a) := by
  obtain ⟨model, name, h⟩ := h
  cases attempt with
  | error error =>
      cases h
      exact .inl ⟨model, name, rfl⟩
  | ok a => exact .inr ⟨a, rfl, model, name, h⟩

theorem bind_eq_of_not_circular {α β : Type} {attempt attempt' : Attempt α}
    {next next' : α → Attempt β} (h : ¬ Circular (attempt >>= next))
    (hattempt : ¬ Circular attempt → attempt' = attempt)
    (hnext : ∀ a, attempt = .ok a → ¬ Circular (next a) → next' a = next a) :
    attempt' >>= next' = attempt >>= next := by
  have hfirst : attempt' = attempt := by
    refine hattempt fun hcircular => h ?_
    obtain ⟨model, name, rfl⟩ := hcircular
    exact ⟨model, name, rfl⟩
  rw [hfirst]
  cases attempt with
  | error error => rfl
  | ok a => exact hnext a rfl h

theorem not_circular_ok {α : Type} (a : α) : ¬ Circular (.ok a : Attempt α) := by
  rintro ⟨model, name, h⟩
  cases h

theorem not_circular_of_names {α : Type} {attempt : Attempt α} (h : Names attempt) :
    ¬ Circular attempt := by
  rintro ⟨model, name, hcircular⟩
  cases h _ hcircular

theorem options_of_resolveTie {owner : Schema} {name correlate : String} {kind : TieKind}
    {options : TieOptions} {tie : Tie}
    (h : registry.resolveTie owner name correlate kind options = .ok tie) :
    tie.kind = kind ∧ tie.target = options.target := by
  rw [resolveTie] at h
  obtain ⟨target, htarget, h⟩ := attempt_bind_eq_ok.mp h
  cases hkeys : options.keys with
  | some keys =>
      rw [hkeys] at h
      cases h
      exact ⟨rfl, model_of_schema htarget⟩
  | none =>
      rw [hkeys] at h
      obtain ⟨keys, -, h⟩ := attempt_bind_eq_ok.mp h
      cases h
      exact ⟨rfl, model_of_schema htarget⟩

theorem declares_of_resolve_tie {fuel : Nat} {model name : String} {tie : Tie}
    (h : registry.resolve fuel model name = .ok (.tie tie)) :
    ∃ options, registry.Declares model name (.tie tie.kind options) ∧
      options.target = tie.target := by
  cases fuel with
  | zero => cases h
  | succ fuel =>
      obtain ⟨owner, decl, correlate, howner, hdecl, -, h⟩ := resolve_eq_ok.mp h
      cases hoptions : decl.options with
      | route options =>
          rw [hoptions] at h
          obtain ⟨_, _, -, -, -, heq⟩ := h
          cases heq
      | tie kind options =>
          rw [hoptions] at h
          obtain ⟨found, hfound, heq⟩ := h
          cases heq
          obtain ⟨hkind, htarget⟩ := options_of_resolveTie hfound
          rw [hkind, htarget]
          exact ⟨options, ⟨owner, decl, howner, hdecl, hoptions⟩, rfl⟩

/-- A resolution that runs out of fuel does so at one of the two relations that the route leads
over. -/
theorem circular_resolve_succ {fuel : Nat} {model name : String}
    (h : Circular (registry.resolve (fuel + 1) model name)) :
    ∃ next, registry.LeadsOver (model, name) next ∧
      Circular (registry.resolve fuel next.1 next.2) := by
  -- the steps that only look up names find no circle, so that one of the two calls has found it
  rw [resolve] at h
  rcases circular_bind h with h | ⟨owner, howner, h⟩
  · exact absurd h (not_circular_of_names (registry.names_schema model))
  cases hdecl : owner.relation? name with
  | none =>
      rw [hdecl] at h
      obtain ⟨_, _, h⟩ := h
      cases h
  | some decl =>
      rw [hdecl] at h
      rcases circular_bind h with h | ⟨_, hpure, h⟩
      · exact absurd h (not_circular_ok _)
      cases hpure
      rcases circular_bind h with h | ⟨correlate, -, h⟩
      · exact absurd h (not_circular_of_names (names_correlateOf _ _ _))
      cases hoptions : decl.options with
      | tie kind options =>
          rw [hoptions] at h
          rcases circular_bind h with h | ⟨_, -, h⟩
          · exact absurd h (not_circular_of_names (registry.names_resolveTie _ _ _ _ _))
          · exact absurd h (not_circular_ok _)
      | route options =>
          rw [hoptions] at h
          have hdeclares : registry.Declares model name (.route options) :=
            ⟨owner, decl, howner, hdecl, hoptions⟩
          rcases circular_bind h with h | ⟨_, -, h⟩
          · exact absurd h (not_circular_of_names (names_validate _ _))
          rcases circular_bind h with h | ⟨found, hfound, h⟩
          · exact ⟨_, .toPivot hdeclares, h⟩
          rcases circular_bind h with h | ⟨route, hroute, h⟩
          · exact absurd h (not_circular_of_names (names_pivotTie _ _ _))
          rcases circular_bind h with h | ⟨_, -, h⟩
          · have hkind : route.kind ≠ .belongsTo := kind_ne_of_pivotTie hroute
            rw [eq_tie_of_pivotTie hroute] at hfound
            obtain ⟨pivot, hpivot, htarget⟩ := declares_of_resolve_tie hfound
            refine ⟨_, .onward hdeclares hpivot hkind, ?_⟩
            rw [htarget]
            exact h
          · exact absurd h (not_circular_ok _)

theorem mem_declared_of_leadsOver {relation next : String × String}
    (h : registry.LeadsOver relation next) : relation ∈ registry.declared := by
  cases h with
  | toPivot h => exact mem_declared h
  | onward h _ _ => exact mem_declared h

/-- A resolution that runs out of fuel has met as many relations as it had fuel, each of them over
the ones before. -/
theorem steps_of_circular {fuel : Nat} (relation : String × String)
    (h : Circular (registry.resolve fuel relation.1 relation.2)) :
    ∃ steps : List (String × String), steps.length = fuel ∧ steps ⊆ registry.declared ∧
      (∀ step ∈ steps, Relation.ReflTransGen registry.LeadsOver relation step) ∧
      steps.Pairwise (Relation.TransGen registry.LeadsOver) := by
  induction fuel generalizing relation with
  | zero => exact ⟨[], rfl, List.nil_subset _, nofun, .nil⟩
  | succ fuel ih =>
      obtain ⟨next, hnext, hcircular⟩ := circular_resolve_succ h
      obtain ⟨steps, hlength, hdeclared, hreach, hpairwise⟩ := ih next hcircular
      have hfar : ∀ step ∈ steps, Relation.TransGen registry.LeadsOver relation step :=
        fun step hstep => .head' hnext (hreach step hstep)
      refine ⟨relation :: steps, congrArg Nat.succ hlength, ?_, ?_, .cons hfar hpairwise⟩
      · exact List.cons_subset.mpr ⟨mem_declared_of_leadsOver hnext, hdeclared⟩
      · intro step hstep
        cases hstep with
        | head => exact .refl
        | tail _ hstep => exact (hfar step hstep).to_reflTransGen

theorem not_circular_resolve (h : registry.CircleFree) {fuel : Nat}
    (hfuel : registry.declaredRelations < fuel) (model name : String) :
    ¬ Circular (registry.resolve fuel model name) := by
  intro hcircular
  obtain ⟨steps, hlength, hdeclared, -, hpairwise⟩ :=
    steps_of_circular (model, name) hcircular
  -- a relation that is met twice leads over itself
  have hdistinct : steps.Nodup := by
    refine hpairwise.imp fun {step next} hstep heq => ?_
    exact h step (heq ▸ hstep)
  have hcount : steps.length ≤ registry.declared.length :=
    (hdistinct.subperm hdeclared).length_le
  rw [hlength, length_declared] at hcount
  exact absurd hcount (Nat.not_le_of_lt hfuel)

theorem resolve_succ_of_not_circular {fuel : Nat} {model name : String}
    (h : ¬ Circular (registry.resolve fuel model name)) :
    registry.resolve (fuel + 1) model name = registry.resolve fuel model name := by
  induction fuel generalizing model name with
  | zero => exact absurd ⟨model, name, rfl⟩ h
  | succ fuel ih =>
      rw [resolve] at h ⊢
      conv_rhs => rw [resolve]
      refine bind_eq_of_not_circular h (fun _ => rfl) fun owner _ h => ?_
      cases hdecl : owner.relation? name with
      | none => rfl
      | some decl =>
          rw [hdecl] at h
          refine bind_eq_of_not_circular h (fun _ => rfl) fun _ hpure h => ?_
          cases hpure
          refine bind_eq_of_not_circular h (fun _ => rfl) fun correlate _ h => ?_
          cases hoptions : decl.options with
          | tie kind options => rfl
          | route options =>
              rw [hoptions] at h
              refine bind_eq_of_not_circular h (fun _ => rfl) fun _ _ h => ?_
              refine bind_eq_of_not_circular h ih fun found _ h => ?_
              refine bind_eq_of_not_circular h (fun _ => rfl) fun route _ h => ?_
              exact bind_eq_of_not_circular h ih fun _ _ _ => rfl

/-- Without circles, the fuel of a resolution does not matter once it exceeds the number of
declarations. -/
theorem resolve_eq_relation (h : registry.CircleFree) {fuel : Nat}
    (hfuel : registry.declaredRelations < fuel) (model name : String) :
    registry.resolve fuel model name = registry.relation model name := by
  induction fuel, hfuel using Nat.le_induction with
  | base => rfl
  | succ fuel hfuel ih =>
      rw [resolve_succ_of_not_circular (not_circular_resolve h hfuel model name), ih]

end Registry

end RecordMapper
