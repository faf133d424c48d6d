import RecordMapper.Session.Query

/-!
# Handing out fetched entities

Fetched entities are handed out from groups and positions that change with every owner.
`attachAll_eq` says what this comes to: each owner gets the fetched entities with its key, as if they
were searched for it alone.
-/

namespace RecordMapper

namespace KeyMap

variable {α : Type}

theorem groupOf_push (groups : KeyMap (List α)) (key other : Key) (a : α) :
    (groups.push key a).groupOf other =
      groups.groupOf other ++ if key = other then [a] else [] := by
  rw [groupOf, push, get?_insert]
  by_cases h : other = key
  · simp [h]
  · simp [h, Ne.symm h, groupOf]

theorem groupOf_group (items : List (Key × α)) (key : Key) :
    (group items).groupOf key = (items.filter fun item => item.1 == key).map Prod.snd := by
  suffices h : ∀ groups : KeyMap (List α),
      (items.foldl (fun groups item => groups.push item.1 item.2) groups).groupOf key =
        groups.groupOf key ++ (items.filter fun item => item.1 == key).map Prod.snd by
    exact h empty
  induction items with
  | nil => exact fun groups => (List.append_nil _).symm
  | cons item rest ih =>
      intro groups
      rw [List.foldl_cons, ih, groupOf_push, List.append_assoc]
      by_cases h : item.1 = key
      · simp [h]
      · simp [h]

theorem countOf_count (keys : List Key) (key : Key) : (count keys).countOf key = keys.count key := by
  suffices h : ∀ counts : KeyMap Nat,
      (keys.foldl (fun counts key => counts.insert key (counts.countOf key + 1)) counts).countOf
        key = counts.countOf key + keys.count key by
    exact (h empty).trans (Nat.zero_add _)
  induction keys with
  | nil => exact fun counts => rfl
  | cons first rest ih =>
      intro counts
      rw [List.foldl_cons, ih, countOf, get?_insert, List.count_cons]
      by_cases h : first = key
      · simp [h, countOf]
        omega
      · simp [h, Ne.symm h, countOf]

end KeyMap

/-! ## Groups of entities -/

theorem groupOf_group_filterMap {α β : Type} (key? : α → Option Key) (f : α → β) (items : List α)
    (key : Key) :
    (KeyMap.group (items.filterMap fun a => (key? a).map fun key => (key, f a))).groupOf key =
      (items.filter fun a => key? a == some key).map f := by
  rw [KeyMap.groupOf_group]
  induction items with
  | nil => rfl
  | cons a rest ih =>
      cases hkey : key? a with
      | none => simpa [hkey] using ih
      | some found =>
          by_cases h : found = key
          · simpa [hkey, h] using ih
          · simpa [hkey, h] using ih

theorem groupOf_keyedEntities (entities : List Entity) (field : String) (key : Key) :
    (KeyMap.group (keyedEntities entities field)).groupOf key =
      entitiesWithKey entities field key :=
  (groupOf_group_filterMap _ id entities key).trans (List.map_id _)

theorem getElem?_head?_keyedPositions (entities : List Entity) (field : String) (key : Key) :
    (((KeyMap.group (keyedPositions entities field)).groupOf key).head?.bind
      fun i => entities[i]?) = (entitiesWithKey entities field key).head? := by
  let hasKey : Entity × Nat → Bool := fun item => item.1.fieldKey? field == some key
  have hgroup : (KeyMap.group (keyedPositions entities field)).groupOf key =
      (entities.zipIdx.filter hasKey).map Prod.snd :=
    groupOf_group_filterMap (fun item : Entity × Nat => item.1.fieldKey? field) Prod.snd
      entities.zipIdx key
  have hentities : entitiesWithKey entities field key =
      (entities.zipIdx.filter hasKey).map Prod.fst := by
    have hfilter := List.filter_map (f := Prod.fst) (l := entities.zipIdx)
      (p := fun entity : Entity => entity.fieldKey? field == some key)
    rw [List.zipIdx_map_fst] at hfilter
    exact hfilter
  rw [hgroup, hentities]
  cases hfound : entities.zipIdx.filter hasKey with
  | nil => rfl
  | cons item rest =>
      have hmem : item ∈ entities.zipIdx := (List.mem_filter.mp (hfound ▸ List.mem_cons_self)).1
      exact List.mem_zipIdx_iff_getElem?.mp hmem

/-! ## Handing out in turn -/

namespace Handout

variable {handout : Handout} {key : Key}

theorem next_of_shared (h : 1 < handout.waiting.countOf key) :
    handout.next (some key) = (handout.groups.groupOf key,
      ⟨handout.waiting.insert key (handout.waiting.countOf key - 1), handout.groups⟩) := by
  simp only [next, if_pos h]

theorem next_of_last (h : ¬ 1 < handout.waiting.countOf key) :
    handout.next (some key) =
      (handout.groups.groupOf key, ⟨handout.waiting, handout.groups.erase key⟩) := by
  simp only [next, if_neg h]

/-- What is left suffices for owners with some keys: each key is counted as often as they have it,
and its group is still there. -/
def Serves (handout : Handout) (groupOf : Key → List Entity) (keys : List Key) : Prop :=
  ∀ key ∈ keys, handout.waiting.countOf key = keys.count key ∧
    handout.groups.groupOf key = groupOf key

variable {groupOf : Key → List Entity} {keys : List Key}

theorem next_fst_of_serves (h : handout.Serves groupOf (key :: keys)) :
    (handout.next (some key)).1 = groupOf key :=
  (h key List.mem_cons_self).2

theorem serves_next (h : handout.Serves groupOf (key :: keys)) :
    (handout.next (some key)).2.Serves groupOf keys := by
  intro other hother
  obtain ⟨hcount, hgroup⟩ := h other (List.mem_cons_of_mem key hother)
  have hwaiting : handout.waiting.countOf key = keys.count key + 1 := by
    rw [(h key List.mem_cons_self).1, List.count_cons_self]
  by_cases hshared : 1 < handout.waiting.countOf key
  · rw [next_of_shared hshared, hwaiting]
    refine ⟨?_, hgroup⟩
    rw [KeyMap.countOf, KeyMap.get?_insert]
    by_cases hkey : other = key
    · rw [if_pos hkey, hkey]
      rfl
    · rw [if_neg hkey]
      rwa [List.count_cons_of_ne (Ne.symm hkey)] at hcount
  · -- the group that is gone was the last owner's, so no owner waits for it any more
    have hkey : other ≠ key := by
      rintro rfl
      have hpositive : 0 < keys.count other := List.count_pos_iff.mpr hother
      omega
    rw [next_of_last hshared]
    constructor
    · rwa [List.count_cons_of_ne (Ne.symm hkey)] at hcount
    · rw [KeyMap.groupOf, KeyMap.get?_erase, if_neg hkey]
      exact hgroup

end Handout

namespace Tie

/-- Those of the fetched entities that are related to an owner, in the order of fetching. -/
def relatedTo (tie : Tie) (fetched : List Entity) (owner : Entity) : List Entity :=
  match owner.fieldKey? tie.sourceKey with
  | some key => entitiesWithKey fetched tie.targetKey key
  | none => []

/-- The owner with its related entities: the first of them, or all of them. -/
def attach (tie : Tie) (fetched : List Entity) (owner : Entity) : Entity :=
  owner.setRelation tie.name <|
    match tie.kind with
    | .belongsTo | .hasOne => .one (tie.relatedTo fetched owner).head?
    | .hasMany => .many ⟨tie.target, tie.relatedTo fetched owner⟩

theorem attachOne_eq (tie : Tie) (fetched owners : List Entity) :
    tie.attachOne fetched owners = owners.map fun owner =>
      owner.setRelation tie.name (.one (tie.relatedTo fetched owner).head?) := by
  refine List.map_congr_left fun owner _ => ?_
  rw [relatedTo]
  cases hkey : owner.fieldKey? tie.sourceKey with
  | none => simp
  | some key => simp [getElem?_head?_keyedPositions]

theorem attachInTurn_eq (tie : Tie) (fetched owners : List Entity) {handout : Handout}
    (h : handout.Serves (entitiesWithKey fetched tie.targetKey)
      (owners.filterMap fun owner => owner.fieldKey? tie.sourceKey)) :
    tie.attachInTurn handout owners = owners.map fun owner =>
      owner.setRelation tie.name (.many ⟨tie.target, tie.relatedTo fetched owner⟩) := by
  induction owners generalizing handout with
  | nil => rfl
  | cons owner rest ih =>
      rw [attachInTurn, List.map_cons, relatedTo]
      cases hkey : owner.fieldKey? tie.sourceKey with
      | none =>
          simp only [List.filterMap_cons, hkey] at h
          exact congrArg _ (ih h)
      | some key =>
          simp only [List.filterMap_cons, hkey] at h
          rw [ih (Handout.serves_next h), Handout.next_fst_of_serves h]

theorem attachMany_eq (tie : Tie) (fetched owners : List Entity) :
    tie.attachMany fetched owners = owners.map fun owner =>
      owner.setRelation tie.name (.many ⟨tie.target, tie.relatedTo fetched owner⟩) :=
  tie.attachInTurn_eq fetched owners fun key _ =>
    ⟨KeyMap.countOf_count _ key, groupOf_keyedEntities fetched tie.targetKey key⟩

/-- Every owner gets what is related to it, whoever got the same before. -/
theorem attachAll_eq (tie : Tie) (fetched owners : List Entity) :
    tie.attachAll fetched owners = owners.map (tie.attach fetched) := by
  unfold attachAll attach
  cases tie.kind with
  | belongsTo | hasOne => exact tie.attachOne_eq fetched owners
  | hasMany => exact tie.attachMany_eq fetched owners

end Tie

end RecordMapper
