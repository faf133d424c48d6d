import Mathlib.Data.List.InsertIdx
import RecordMapper.Proofs.Entity.Opening

/-!
# Views as lists

A view through a pivot is a list of places, and each place has a far entity or none.  Calls on a view do to
its places what the same calls do to a list, and give back what was there: `slots_apply` for one call and
`slots_run` for any number of them.  What a pivot is besides its far entity is never changed; pivots only
come, as new entities, and go: `bare_run`.  `view_acts_as_list` puts this together for the views that open on
an entity, with what the entity lists when it has the pivots of the view.
-/

namespace RecordMapper

namespace ThroughView

/-! ## Calls -/

inductive Call
  | push (entity : Entity)
  | set (i : Nat) (entity : Entity)
  | unset (i : Nat)
  | clear
  /-- A change of the far entity at a position. -/
  | edit (i : Nat) (change : Entity → Entity)

/-- What a call gives back, and the view after it. -/
def apply (view : ThroughView) : Call → Option Entity × ThroughView
  | .push entity => (none, view.push entity)
  | .set i entity => view.swapAt i entity
  | .unset i => view.takeAt i
  | .clear => (none, view.clear)
  | .edit i change => (view.get? i, view.modify i change)

def Call.onSlots (slots : List (Option Entity)) : Call → Option Entity × List (Option Entity)
  | .push entity => (none, slots ++ [some entity])
  | .set i entity => (slots[i]?.join,
      if i < slots.length then slots.set i (some entity) else slots ++ [some entity])
  | .unset i => (slots[i]?.join, slots.eraseIdx i)
  | .clear => (none, [])
  | .edit i change => (slots[i]?.join, slots.modify i (Option.map change))

/-- What a call does to pivots without regard to their far entities.  A pivot that comes is a new entity of
their model. -/
def Call.onPivots (model : String) (pivots : List Entity) : Call → List Entity
  | .push _ => pivots ++ [.new model]
  | .set i _ => if i < pivots.length then pivots else pivots ++ [.new model]
  | .unset i => pivots.eraseIdx i
  | .clear => []
  | .edit _ _ => pivots

/-- Calls one after the other, with all that they give back. -/
def run {σ : Type} (apply : σ → Call → Option Entity × σ) (s : σ) :
    List Call → List (Option Entity) × σ
  | [] => ([], s)
  | call :: rest =>
      let outcome := run apply (apply s call).2 rest
      ((apply s call).1 :: outcome.1, outcome.2)

/-- A view of the state that follows each call follows all of them. -/
theorem run_eq_of_apply_eq {σ τ : Type} {apply : σ → Call → Option Entity × σ}
    {apply' : τ → Call → Option Entity × τ} (f : σ → τ)
    (h : ∀ s call, apply' (f s) call = ((apply s call).1, f (apply s call).2)) (s : σ)
    (calls : List Call) :
    run apply' (f s) calls = ((run apply s calls).1, f (run apply s calls).2) := by
  induction calls generalizing s with
  | nil => rfl
  | cons call rest ih => simp only [run, h, ih]

/-! ## What a call does to the pivots -/

variable {view : ThroughView} {i j : Nat}

def putFar (view : ThroughView) (i : Nat) (pivot entity : Entity) : ThroughView :=
  { view with pivots := view.pivots.replace i (pivot.setFar view.far entity) }

theorem lt_size_of_get? {pivot : Entity} (h : view.pivots.get? i = some pivot) : i < view.size :=
  (List.getElem?_eq_some_iff.mp h).1

theorem set_cases (view : ThroughView) (i : Nat) (entity : Entity) :
    (∃ pivot, view.pivots.get? i = some pivot ∧ view.set i entity = view.putFar i pivot entity) ∨
      (view.size ≤ i ∧ view.set i entity = view.push entity) := by
  rw [set, swapAt]
  cases hpivot : view.pivots.get? i with
  | none => exact .inr ⟨List.getElem?_eq_none_iff.mp hpivot, rfl⟩
  | some pivot => exact .inl ⟨pivot, rfl, rfl⟩

theorem modify_cases (view : ThroughView) (i : Nat) (change : Entity → Entity) :
    (∃ pivot entity, view.pivots.get? i = some pivot ∧ pivot.far? view.far = some entity ∧
        view.modify i change = view.putFar i pivot (change entity)) ∨
      (view.get? i = none ∧ view.modify i change = view) := by
  rw [modify, get?]
  cases hpivot : view.pivots.get? i with
  | none => exact .inr ⟨rfl, rfl⟩
  | some pivot =>
      rw [Option.bind_some]
      cases hfar : pivot.far? view.far with
      | none => exact .inr ⟨rfl, by simp only [hfar]⟩
      | some entity => exact .inl ⟨pivot, entity, rfl, hfar, by simp only [hfar]; rfl⟩

theorem bind_entity? (pivot : Entity) (far : String) :
    (pivot.relation? far).bind Related.entity? = pivot.far? far := by
  rw [Entity.far?]
  cases pivot.relation? far with
  | none => rfl
  | some related => cases related <;> rfl

theorem fst_swapAt (view : ThroughView) (i : Nat) (entity : Entity) :
    (view.swapAt i entity).1 = view.get? i := by
  rw [swapAt, get?]
  cases view.pivots.get? i with
  | none => rfl
  | some pivot => exact bind_entity? pivot view.far

theorem fst_takeAt (view : ThroughView) (i : Nat) : (view.takeAt i).1 = view.get? i := by
  rw [takeAt, get?]
  simp only [bind_entity?]

theorem apply_eq (view : ThroughView) (call : Call) :
    (view.apply call).2 = { view with pivots := (view.apply call).2.pivots } := by
  cases call with
  | push _ | unset _ | clear => rfl
  | set i entity =>
      change view.set i entity = { view with pivots := (view.set i entity).pivots }
      obtain ⟨_, -, h⟩ | ⟨-, h⟩ := set_cases view i entity <;> rw [h] <;> rfl
  | edit i change =>
      change view.modify i change = { view with pivots := (view.modify i change).pivots }
      obtain ⟨_, _, -, -, h⟩ | ⟨-, h⟩ := modify_cases view i change <;> rw [h]
      rfl

theorem pivots_set_of_ne (view : ThroughView) (entity : Entity) (hne : j ≠ i)
    (hlt : j < view.size) : (view.set i entity).pivots.get? j = view.pivots.get? j := by
  obtain ⟨_, -, h⟩ | ⟨-, h⟩ := set_cases view i entity
  · rw [h]
    exact List.getElem?_set_ne (Ne.symm hne)
  · rw [h]
    exact List.getElem?_append_left hlt

theorem pivots_modify_of_ne (view : ThroughView) (change : Entity → Entity) (hne : j ≠ i) :
    (view.modify i change).pivots.get? j = view.pivots.get? j := by
  obtain ⟨_, _, -, -, h⟩ | ⟨-, h⟩ := modify_cases view i change
  · rw [h]
    exact List.getElem?_set_ne (Ne.symm hne)
  · rw [h]

/-! ## Places -/

theorem set_of_getElem? {α : Type} {as : List α} {a : α} (h : as[i]? = some a) :
    as.set i a = as := by
  obtain ⟨hlt, rfl⟩ := List.getElem?_eq_some_iff.mp h
  exact List.set_getElem_self hlt

theorem modify_of_join_getElem? {slots : List (Option Entity)} (h : slots[i]?.join = none)
    (change : Entity → Entity) : slots.modify i (Option.map change) = slots := by
  rw [List.modify_eq_set_getElem?]
  cases hslot : slots[i]? with
  | none => rfl
  | some slot =>
      rw [hslot, Option.join_some] at h
      subst h
      exact set_of_getElem? hslot

theorem far?_setFar (pivot : Entity) (far : String) (entity : Entity) :
    (pivot.setFar far entity).far? far = some entity := by
  rw [Entity.far?, Entity.setFar, Entity.relation?_setRelation, if_pos rfl]

theorem length_slots (view : ThroughView) : view.slots.length = view.size :=
  List.length_map ..

theorem getElem?_slots (view : ThroughView) (i : Nat) :
    view.slots[i]? = (view.pivots.get? i).map fun pivot => pivot.far? view.far :=
  List.getElem?_map ..

theorem join_getElem?_slots (view : ThroughView) (i : Nat) : view.slots[i]?.join = view.get? i := by
  rw [getElem?_slots, get?]
  cases view.pivots.get? i with
  | none => rfl
  | some pivot => rfl

theorem slots_push (view : ThroughView) (entity : Entity) :
    (view.push entity).slots = view.slots ++ [some entity] := by
  simp [push, slots, Collection.push, far?_setFar]

theorem slots_putFar (view : ThroughView) (i : Nat) (pivot entity : Entity) :
    (view.putFar i pivot entity).slots = view.slots.set i (some entity) := by
  rw [putFar, slots, slots, Collection.replace, List.map_set, far?_setFar]

theorem slots_set (view : ThroughView) (i : Nat) (entity : Entity) :
    (view.set i entity).slots =
      if i < view.size then view.slots.set i (some entity) else view.slots ++ [some entity] := by
  obtain ⟨pivot, hpivot, h⟩ | ⟨hpast, h⟩ := set_cases view i entity
  · rw [if_pos (lt_size_of_get? hpivot), h, slots_putFar]
  · rw [if_neg (Nat.not_lt_of_le hpast), h, slots_push]

theorem slots_unset (view : ThroughView) (i : Nat) :
    (view.unset i).slots = view.slots.eraseIdx i :=
  (List.eraseIdx_map ..).symm

theorem slots_modify (view : ThroughView) (i : Nat) (change : Entity → Entity) :
    (view.modify i change).slots = view.slots.modify i (Option.map change) := by
  obtain ⟨pivot, entity, hpivot, hfar, h⟩ | ⟨hnone, h⟩ := modify_cases view i change
  · rw [h, slots_putFar, List.modify_eq_set_getElem?, getElem?_slots, hpivot, Option.map_some, hfar]
    rfl
  · rw [h, modify_of_join_getElem? ((join_getElem?_slots view i).trans hnone)]

/-- What a call gives back and does to the places of a view is what it does to a list. -/
theorem onSlots_eq (view : ThroughView) (call : Call) :
    Call.onSlots view.slots call = ((view.apply call).1, (view.apply call).2.slots) := by
  cases call with
  | push entity => exact Prod.ext rfl (slots_push view entity).symm
  | set i entity =>
      rw [Call.onSlots, join_getElem?_slots, length_slots, ← slots_set, ← fst_swapAt view i entity]
      rfl
  | unset i =>
      rw [Call.onSlots, join_getElem?_slots, ← slots_unset, ← fst_takeAt]
      rfl
  | clear => rfl
  | edit i change =>
      rw [Call.onSlots, join_getElem?_slots, ← slots_modify]
      rfl

/-! ## Pivots without their far entities -/

def bare (view : ThroughView) : List Entity :=
  view.pivots.entities.map fun pivot => pivot.unsetRelation view.far

theorem length_bare (view : ThroughView) : view.bare.length = view.size :=
  List.length_map ..

theorem unsetRelation_setFar (pivot : Entity) (far : String) (entity : Entity) :
    (pivot.setFar far entity).unsetRelation far = pivot.unsetRelation far := by
  simp only [Entity.setFar, Entity.setRelation, Entity.unsetRelation, erasePair_insertPair]

theorem bare_push (view : ThroughView) (entity : Entity) :
    (view.push entity).bare = view.bare ++ [.new view.pivotModel] := by
  rw [bare, push, Collection.push, List.map_append, List.map_singleton, unsetRelation_setFar]
  rfl

theorem bare_putFar {pivot : Entity} (h : view.pivots.get? i = some pivot) (entity : Entity) :
    (view.putFar i pivot entity).bare = view.bare := by
  have hrest : view.bare[i]? = some (pivot.unsetRelation view.far) := by
    rw [bare, List.getElem?_map]
    exact congrArg (Option.map fun pivot => pivot.unsetRelation view.far) h
  rw [bare, putFar, Collection.replace, List.map_set, unsetRelation_setFar]
  exact set_of_getElem? hrest

theorem bare_set (view : ThroughView) (i : Nat) (entity : Entity) :
    (view.set i entity).bare =
      if i < view.size then view.bare else view.bare ++ [.new view.pivotModel] := by
  obtain ⟨pivot, hpivot, h⟩ | ⟨hpast, h⟩ := set_cases view i entity
  · rw [if_pos (lt_size_of_get? hpivot), h, bare_putFar hpivot]
  · rw [if_neg (Nat.not_lt_of_le hpast), h, bare_push]

theorem bare_unset (view : ThroughView) (i : Nat) : (view.unset i).bare = view.bare.eraseIdx i :=
  (List.eraseIdx_map ..).symm

theorem bare_modify (view : ThroughView) (i : Nat) (change : Entity → Entity) :
    (view.modify i change).bare = view.bare := by
  obtain ⟨pivot, entity, hpivot, -, h⟩ | ⟨-, h⟩ := modify_cases view i change
  · rw [h, bare_putFar hpivot]
  · rw [h]

theorem bare_apply (view : ThroughView) (call : Call) :
    (view.apply call).2.bare = call.onPivots view.pivotModel view.bare := by
  cases call with
  | push entity => exact bare_push view entity
  | set i entity =>
      rw [Call.onPivots, length_bare]
      exact bare_set view i entity
  | unset i => exact bare_unset view i
  | clear => rfl
  | edit i change => exact bare_modify view i change

/-! ## Runs -/

theorem onSlots_run (view : ThroughView) (calls : List Call) :
    run Call.onSlots view.slots calls =
      ((run apply view calls).1, (run apply view calls).2.slots) :=
  run_eq_of_apply_eq slots onSlots_eq view calls

theorem run_eq (view : ThroughView) (calls : List Call) :
    (run apply view calls).2 = { view with pivots := (run apply view calls).2.pivots } := by
  induction calls generalizing view with
  | nil => rfl
  | cons call rest ih =>
      rw [run, ih, apply_eq view call]

theorem bare_run (view : ThroughView) (calls : List Call) :
    (run apply view calls).2.bare = calls.foldl (Call.onPivots view.pivotModel) view.bare := by
  induction calls generalizing view with
  | nil => rfl
  | cons call rest ih =>
      have hmodel : (view.apply call).2.pivotModel = view.pivotModel := by rw [apply_eq]
      rw [run, ih, List.foldl_cons, bare_apply, hmodel]

/-- A view after some calls, and the list of its places after the same calls. -/
structure ActsAsList (view : ThroughView) (calls : List Call) : Prop where
  given : (run apply view calls).1 = (run Call.onSlots view.slots calls).1
  size : (run apply view calls).2.size = (run Call.onSlots view.slots calls).2.length
  get? : ∀ i, (run apply view calls).2.get? i = (run Call.onSlots view.slots calls).2[i]?.join
  toList : (run apply view calls).2.toList = (run Call.onSlots view.slots calls).2.filterMap id
  /-- All that a pivot is besides its far entity: its fields, its stored row and its other relations. -/
  bare : (run apply view calls).2.bare = calls.foldl (Call.onPivots view.pivotModel) view.bare
  /-- The next call for one position leaves the others alone. -/
  set_others : ∀ i j entity, j ≠ i → j < (run apply view calls).2.size →
    ((run apply view calls).2.set i entity).pivots.get? j = (run apply view calls).2.pivots.get? j
  edit_others : ∀ i j change, j ≠ i →
    ((run apply view calls).2.modify i change).pivots.get? j =
      (run apply view calls).2.pivots.get? j

theorem actsAsList (view : ThroughView) (calls : List Call) : view.ActsAsList calls where
  given := by rw [onSlots_run]
  size := by rw [onSlots_run, length_slots]
  get? i := by rw [onSlots_run, join_getElem?_slots]
  toList := by rw [onSlots_run]; rfl
  bare := bare_run view calls
  set_others _ _ entity := pivots_set_of_ne _ entity
  edit_others _ _ change := pivots_modify_of_ne _ change

end ThroughView

namespace Entity

variable {owner : Entity} {name correlate : String} {route : Tie} {far : Relation} {mode : PivotMode}
  {fars : List Entity}

theorem fars_of_throughEntities
    (h : owner.throughEntities (.through name correlate route far mode) = .ok fars) :
    ∃ pivots, owner.relation? route.name = some (.many pivots) ∧
      fars = (pivots.entities.map fun pivot => pivot.far? far.name).filterMap id := by
  rw [throughEntities] at h
  split at h
  · cases h
  · obtain ⟨pivots, hpivots, h⟩ := attempt_bind_eq_ok.mp h
    obtain ⟨found, hfound, h⟩ := attempt_bind_eq_ok.mp h
    cases h
    have hfars : List.Forall₂ (· = ·) (pivots.entities.map fun pivot => pivot.far? far.name) found := by
      refine List.forall₂_map_left_iff.mpr ((attempt_mapM_eq_ok.mp hfound).imp ?_)
      intro pivot far? hone
      rw [Entity.far?, relation?_of_one hone]
    rw [List.forall₂_eq_eq_eq] at hfars
    exact ⟨pivots, relation?_of_many hpivots, by rw [hfars]⟩

theorem exists_of_openThrough {relation : Relation} {view : ThroughView}
    (h : (owner.openThrough relation).2 = .ok view) :
    ∃ name correlate route far mode, relation = .through name correlate route far mode ∧
      owner.OpensOn route view.pivots ∧ view.route = route.name ∧ view.far = far.name := by
  cases relation with
  | tie _ => cases h
  | through name correlate route far mode =>
      have hopening := opening owner name correlate route far mode
      generalize owner.openThrough _ = outcome at hopening h
      cases hopening with
      | refused _ => cases h
      | misshapen _ _ => cases h
      | opened _ shown =>
          cases h
          exact ⟨_, _, _, _, _, rfl, shown, rfl, rfl⟩

end Entity

namespace ThroughView

/-- A view that opens on an entity acts as a list of far entities under any calls, and the entity lists the far
entities of the view: before the calls, and after them with the pivots of the view. -/
theorem view_acts_as_list {owner : Entity} {relation : Relation} {view : ThroughView}
    (h : (owner.openThrough relation).2 = .ok view) (calls : List Call) :
    view.ActsAsList calls ∧
      (∀ fars, owner.throughEntities relation = .ok fars → fars = view.toList) ∧
      ∀ fars, ((owner.openThrough relation).1.closeThrough (run apply view calls).2).throughEntities
        relation = .ok fars → fars = (run apply view calls).2.toList := by
  obtain ⟨name, correlate, route, far, mode, rfl, hshown, hroute, hfar⟩ :=
    Entity.exists_of_openThrough h
  refine ⟨view.actsAsList calls, fun fars hread => ?_, fun fars hread => ?_⟩
  · obtain ⟨pivots, hpivots, rfl⟩ := Entity.fars_of_throughEntities hread
    rcases hshown with hattached | ⟨hnone, -, -⟩
    · rw [hattached] at hpivots
      cases hpivots
      rw [toList, slots, hfar]
    · rw [hnone] at hpivots
      cases hpivots
  · obtain ⟨pivots, hpivots, rfl⟩ := Entity.fars_of_throughEntities hread
    have hroute' : (run apply view calls).2.route = route.name :=
      (congrArg ThroughView.route (run_eq view calls)).trans hroute
    have hfar' : (run apply view calls).2.far = far.name :=
      (congrArg ThroughView.far (run_eq view calls)).trans hfar
    rw [Entity.closeThrough, hroute', Entity.relation?_setRelation, if_pos rfl] at hpivots
    cases hpivots
    rw [toList, slots, hfar']

end ThroughView

namespace Gallery

/-- A pivot to a tag, and one whose tag is not there. -/
def danglingPivots : List Entity :=
  [(Entity.hydrated "ImageTag" (pivotRow 1 2)).setFar "tag" secondTag,
    (Entity.hydrated "ImageTag" (pivotRow 3 9)).setRelation "tag" (.one none)]

def danglingImage : Entity :=
  imageWith "images_tags" "ImageTag" danglingPivots

def danglingView : ThroughView :=
  ⟨"images_tags", "tag", "ImageTag", ⟨"ImageTag", danglingPivots⟩⟩

def newTag (name : String) : Entity :=
  (Entity.new "Tag").set "name" (.text name)

/-- Calls of every kind but `clear`, inside the list and past its end. -/
def tagCalls : List ThroughView.Call :=
  [.push (newTag "Computer"), .set 1 (newTag "City"), .set 10 (newTag "Sea"),
    .edit 0 fun tag => tag.set "name" (.text "Ocean"), .unset 2, .unset 42]

end Gallery

open Gallery ThroughView in
/-- The tag at the first place is renamed, the place without a tag is filled, and the tag that was pushed is
taken away again. -/
theorem view_acts_as_list_of_tags :
    (danglingImage.openThrough tagsOfImage).2 = .ok danglingView ∧
      danglingView.ActsAsList tagCalls ∧
      (run apply danglingView tagCalls).1 =
        [none, none, none, some secondTag, some (newTag "Computer"), none] ∧
      ((danglingImage.openThrough tagsOfImage).1.closeThrough
        (run apply danglingView tagCalls).2).throughEntities tagsOfImage =
          .ok [secondTag.set "name" (.text "Ocean"), newTag "City", newTag "Sea"] ∧
      [secondTag.set "name" (.text "Ocean"), newTag "City", newTag "Sea"] =
        (run apply danglingView tagCalls).2.toList := by
  have hopened : (danglingImage.openThrough tagsOfImage).2 = .ok danglingView := by rfl
  have hfars : ((danglingImage.openThrough tagsOfImage).1.closeThrough
      (run apply danglingView tagCalls).2).throughEntities tagsOfImage =
        .ok [secondTag.set "name" (.text "Ocean"), newTag "City", newTag "Sea"] := by
    rfl
  obtain ⟨hlist, -, hread⟩ := view_acts_as_list hopened tagCalls
  exact ⟨hopened, hlist, by rfl, hfars, hread _ hfars⟩

end RecordMapper
