import RecordMapper.Proofs.Attempt
import RecordMapper.Registry

/-!
# Resolved relations

What a registry resolves bears the names that it was asked for.  The two parts of a relation through
a pivot are relations of their own.
-/

namespace RecordMapper

namespace Registry

variable {registry : Registry}

theorem model_of_schema {model : String} {schema : Schema} (h : registry.schema model = .ok schema) :
    schema.model = model := by
  unfold Registry.schema find? at h
  cases hfound : registry.schemas.find? (fun schema => schema.model == model) with
  | none =>
      rw [hfound] at h
      cases h
  | some found =>
      rw [hfound] at h
      cases h
      simpa using List.find?_some hfound

theorem eq_tie_of_pivotTie {name route : String} {relation : Relation} {tie : Tie}
    (h : pivotTie name route relation = .ok tie) : relation = .tie tie := by
  cases relation with
  | tie found =>
      rw [pivotTie] at h
      split at h
      · cases h
      · cases h
        rfl
  | through _ _ _ _ _ => cases h

theorem kind_ne_of_pivotTie {name route : String} {relation : Relation} {tie : Tie}
    (h : pivotTie name route relation = .ok tie) : tie.kind ≠ .belongsTo := by
  cases relation with
  | tie found =>
      rw [pivotTie] at h
      split at h
      · cases h
      next hkind =>
        cases h
        exact hkind
  | through _ _ _ _ _ => cases h

theorem resolve_eq_ok {fuel : Nat} {model name : String} {relation : Relation} :
    registry.resolve (fuel + 1) model name = .ok relation ↔
      ∃ owner decl correlate, registry.schema model = .ok owner ∧ owner.relation? name = some decl ∧
        correlateOf registry.naming model decl.options = .ok correlate ∧
        match decl.options with
        | .tie kind options => ∃ tie, registry.resolveTie owner name correlate kind options =
            .ok tie ∧ relation = .tie tie
        | .route options => ∃ route far, options.validate name = .ok () ∧
            (∃ found, registry.resolve fuel model options.through = .ok found ∧
              pivotTie name options.through found = .ok route) ∧
            registry.resolve fuel route.target options.far = .ok far ∧
            relation = .through name correlate route far options.mode := by
  rw [resolve, attempt_bind_eq_ok]
  constructor
  · rintro ⟨owner, howner, h⟩
    cases hdecl : owner.relation? name with
    | none =>
        rw [hdecl] at h
        cases h
    | some decl =>
        rw [hdecl] at h
        obtain ⟨_, hpure, h⟩ := attempt_bind_eq_ok.mp h
        cases hpure
        obtain ⟨correlate, hcorrelate, h⟩ := attempt_bind_eq_ok.mp h
        refine ⟨owner, decl, correlate, howner, hdecl, hcorrelate, ?_⟩
        cases hoptions : decl.options with
        | tie kind options =>
            rw [hoptions] at h
            obtain ⟨tie, htie, h⟩ := attempt_bind_eq_ok.mp h
            cases h
            exact ⟨tie, htie, rfl⟩
        | route options =>
            rw [hoptions] at h
            obtain ⟨_, hvalid, h⟩ := attempt_bind_eq_ok.mp h
            obtain ⟨found, hfound, h⟩ := attempt_bind_eq_ok.mp h
            obtain ⟨route, hroute, h⟩ := attempt_bind_eq_ok.mp h
            obtain ⟨far, hfar, h⟩ := attempt_bind_eq_ok.mp h
            cases h
            exact ⟨route, far, hvalid, ⟨found, hfound, hroute⟩, hfar, rfl⟩
  · rintro ⟨owner, decl, correlate, howner, hdecl, hcorrelate, h⟩
    refine ⟨owner, howner, ?_⟩
    rw [hdecl]
    refine attempt_bind_eq_ok.mpr ⟨decl, rfl, attempt_bind_eq_ok.mpr ⟨correlate, hcorrelate, ?_⟩⟩
    cases hoptions : decl.options with
    | tie kind options =>
        rw [hoptions] at h
        obtain ⟨tie, htie, rfl⟩ := h
        exact attempt_bind_eq_ok.mpr ⟨tie, htie, rfl⟩
    | route options =>
        rw [hoptions] at h
        obtain ⟨route, far, hvalid, ⟨found, hfound, hroute⟩, hfar, rfl⟩ := h
        exact attempt_bind_eq_ok.mpr ⟨(), hvalid, attempt_bind_eq_ok.mpr ⟨found, hfound,
          attempt_bind_eq_ok.mpr ⟨route, hroute, attempt_bind_eq_ok.mpr ⟨far, hfar, rfl⟩⟩⟩⟩

theorem resolve_succ {fuel : Nat} {model name : String} {relation : Relation}
    (h : registry.resolve fuel model name = .ok relation) :
    registry.resolve (fuel + 1) model name = .ok relation := by
  induction fuel generalizing model name relation with
  | zero => cases h
  | succ fuel ih =>
      obtain ⟨owner, decl, correlate, howner, hdecl, hcorrelate, h⟩ := resolve_eq_ok.mp h
      refine resolve_eq_ok.mpr ⟨owner, decl, correlate, howner, hdecl, hcorrelate, ?_⟩
      cases hoptions : decl.options with
      | tie kind options =>
          rw [hoptions] at h
          exact h
      | route options =>
          rw [hoptions] at h
          obtain ⟨route, far, hvalid, ⟨found, hfound, hroute⟩, hfar, rfl⟩ := h
          exact ⟨route, far, hvalid, ⟨found, ih hfound, hroute⟩, ih hfar, rfl⟩

theorem ends_of_resolveTie {owner : Schema} {name correlate : String} {kind : TieKind}
    {options : TieOptions} {tie : Tie}
    (h : registry.resolveTie owner name correlate kind options = .ok tie) :
    tie.name = name ∧ tie.source = owner.model ∧
      ∃ target, registry.schema tie.target = .ok target := by
  rw [resolveTie] at h
  obtain ⟨target, htarget, h⟩ := attempt_bind_eq_ok.mp h
  have hmodel : target.model = options.target := model_of_schema htarget
  cases hkeys : options.keys with
  | some keys =>
      rw [hkeys] at h
      cases h
      exact ⟨rfl, rfl, target, hmodel ▸ htarget⟩
  | none =>
      rw [hkeys] at h
      obtain ⟨keys, _, h⟩ := attempt_bind_eq_ok.mp h
      cases h
      exact ⟨rfl, rfl, target, hmodel ▸ htarget⟩

/-- What a relation is made of: the ends of a tie, or the two relations that lead through a pivot. -/
theorem resolve_cases {fuel : Nat} {model name : String} {relation : Relation}
    (h : registry.resolve (fuel + 1) model name = .ok relation) :
    (∃ tie, relation = .tie tie ∧ tie.name = name ∧ tie.source = model ∧
      ∃ target, registry.schema tie.target = .ok target) ∨
    ∃ correlate route far mode through farName, relation = .through name correlate route far mode ∧
      registry.resolve fuel model through = .ok (.tie route) ∧
      registry.resolve fuel route.target farName = .ok far := by
  obtain ⟨owner, decl, correlate, howner, -, -, h⟩ := resolve_eq_ok.mp h
  cases hoptions : decl.options with
  | tie kind options =>
      rw [hoptions] at h
      obtain ⟨tie, htie, rfl⟩ := h
      obtain ⟨hname, hsource, htarget⟩ := ends_of_resolveTie htie
      exact .inl ⟨tie, rfl, hname, hsource.trans (model_of_schema howner), htarget⟩
  | route options =>
      rw [hoptions] at h
      obtain ⟨route, far, -, ⟨found, hfound, hroute⟩, hfar, rfl⟩ := h
      rw [eq_tie_of_pivotTie hroute] at hfound
      exact .inr ⟨correlate, route, far, options.mode, options.through, options.far, rfl, hfound,
        hfar⟩

theorem name_of_resolve {fuel : Nat} {model name : String} {relation : Relation}
    (h : registry.resolve fuel model name = .ok relation) : relation.name = name := by
  cases fuel with
  | zero => cases h
  | succ fuel =>
      cases resolve_cases h with
      | inl htie =>
          obtain ⟨tie, rfl, hname, -⟩ := htie
          exact hname
      | inr hthrough =>
          obtain ⟨_, _, _, _, _, _, rfl, -⟩ := hthrough
          rfl

theorem name_of_relation {model name : String} {relation : Relation}
    (h : registry.relation model name = .ok relation) : relation.name = name :=
  name_of_resolve h

theorem parts_of_relation {model name through correlate : String} {route : Tie} {far : Relation}
    {mode : PivotMode}
    (h : registry.relation model name = .ok (.through through correlate route far mode)) :
    registry.relation model route.name = .ok (.tie route) ∧
      registry.relation route.target far.name = .ok far := by
  cases resolve_cases h with
  | inl htie =>
      obtain ⟨_, heq, -⟩ := htie
      cases heq
  | inr hthrough =>
      obtain ⟨_, _, _, _, routeName, farName, heq, hroute, hfar⟩ := hthrough
      cases heq
      have hrouteName : route.name = routeName := name_of_resolve hroute
      have hfarName : far.name = farName := name_of_resolve hfar
      rw [hrouteName, hfarName]
      exact ⟨resolve_succ hroute, resolve_succ hfar⟩

/-- The way to a pivot leads to many rows or to one, and never to a parent. -/
theorem kind_of_through {model name own correlate : String} {route : Tie} {far : Relation}
    {mode : PivotMode}
    (h : registry.relation model name = .ok (.through own correlate route far mode)) :
    route.kind ≠ .belongsTo := by
  obtain ⟨owner, decl, _, -, -, -, hresolved⟩ := resolve_eq_ok.mp h
  cases hoptions : decl.options with
  | tie kind options =>
      rw [hoptions] at hresolved
      obtain ⟨_, -, heq⟩ := hresolved
      cases heq
  | route options =>
      rw [hoptions] at hresolved
      obtain ⟨_, _, -, ⟨found, -, hroute⟩, -, heq⟩ := hresolved
      cases heq
      exact kind_ne_of_pivotTie hroute

def Has (registry : Registry) (relation : Relation) : Prop :=
  ∃ model name, registry.relation model name = .ok relation

theorem has_parts {through correlate : String} {route : Tie} {far : Relation} {mode : PivotMode}
    (h : registry.Has (.through through correlate route far mode)) :
    registry.Has (.tie route) ∧ registry.Has far := by
  obtain ⟨model, name, hrelation⟩ := h
  have hname : through = name := name_of_relation hrelation
  obtain ⟨hroute, hfar⟩ := parts_of_relation (hname ▸ hrelation)
  exact ⟨⟨model, route.name, hroute⟩, ⟨route.target, far.name, hfar⟩⟩

/-- Every relation through a pivot keeps the rows that fit. -/
def ReconcilesByDiff (registry : Registry) : Prop :=
  ∀ schema ∈ registry.schemas, ∀ decl ∈ schema.relations, ∀ options : RouteOptions,
    decl.options = .route options → options.mode = .diff

theorem mem_schemas_of_schema {model : String} {schema : Schema}
    (h : registry.schema model = .ok schema) : schema ∈ registry.schemas := by
  unfold Registry.schema find? at h
  cases hfound : registry.schemas.find? (fun schema => schema.model == model) with
  | none =>
      rw [hfound] at h
      cases h
  | some found =>
      rw [hfound] at h
      cases h
      exact List.mem_of_find?_eq_some hfound

theorem mode_of_relation (h : registry.ReconcilesByDiff)
    {model name own correlate : String} {route : Tie} {far : Relation} {mode : PivotMode}
    (hrelation : registry.relation model name = .ok (.through own correlate route far mode)) :
    mode = .diff := by
  obtain ⟨owner, decl, _, howner, hdecl, -, hresolved⟩ := resolve_eq_ok.mp hrelation
  have hmem : decl ∈ owner.relations := List.mem_of_find?_eq_some hdecl
  cases hoptions : decl.options with
  | tie kind options =>
      rw [hoptions] at hresolved
      obtain ⟨_, -, heq⟩ := hresolved
      cases heq
  | route options =>
      rw [hoptions] at hresolved
      obtain ⟨_, _, -, -, -, heq⟩ := hresolved
      cases heq
      exact h owner (mem_schemas_of_schema howner) decl hmem options hoptions

end Registry

end RecordMapper
