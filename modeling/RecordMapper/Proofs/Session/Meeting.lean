import RecordMapper.Proofs.Session.Batching
import RecordMapper.Proofs.Session.Children
import RecordMapper.Proofs.Value.Identity

/-!
# Rows that meet by their keys

Wherever rows are matched in memory, two rows meet if and only if the values of two columns have one key.
`keys_identify_values` says so of an index, of the values of a field, of embedding and of what a save
compares with the stored rows, and also which values have one key: those that are identical, and whole
numbers beyond 64 bits that collide.
-/

namespace RecordMapper

/-- Two rows with one key, each in a column of its own. -/
def Row.SharesKey (row : Row) (column : String) (other : Row) (otherColumn : String) : Prop :=
  ∃ v w key, row.get? column = some v ∧ other.get? otherColumn = some w ∧
    v.key? = some key ∧ w.key? = some key

theorem Row.sharesKey_iff {row other : Row} {column otherColumn : String} :
    row.SharesKey column other otherColumn ↔ ∃ key,
      (row.get? column).bind Value.key? = some key ∧
        (other.get? otherColumn).bind Value.key? = some key := by
  simp only [SharesKey, Option.bind_eq_some_iff]
  constructor
  · rintro ⟨v, w, key, hv, hw, hkey, hkey'⟩
    exact ⟨key, ⟨v, hv, hkey⟩, w, hw, hkey'⟩
  · rintro ⟨key, ⟨v, hv, hkey⟩, w, hw, hkey'⟩
    exact ⟨v, w, key, hv, hw, hkey, hkey'⟩

theorem Entity.sharesKey_iff {a b : Entity} {field other : String} :
    a.fields.SharesKey field b.fields other ↔
      ∃ key, a.fieldKey? field = some key ∧ b.fieldKey? other = some key :=
  Row.sharesKey_iff

/-! ## Collections -/

namespace Collection

variable {c : Collection} {field : String} {key : Key} {i j : Nat}

theorem mem_positionsOf : i ∈ c.positionsOf field key ↔
    ∃ entity, c.get? i = some entity ∧ entity.fieldKey? field = some key := by
  simp only [positionsOf, get?, List.mem_map, List.mem_filter, Prod.exists, exists_eq_right,
    List.mk_mem_zipIdx_iff_getElem?, beq_iff_eq]

theorem mem_indexBy {group : Key × List Nat} : group ∈ c.indexBy field ↔
    (∃ entity ∈ c.entities, entity.fieldKey? field = some group.1) ∧
      group.2 = c.positionsOf field group.1 := by
  obtain ⟨key, positions⟩ := group
  simp only [indexBy, List.mem_map, List.mem_mergeSort, List.mem_eraseDups, List.mem_filterMap,
    Prod.mk.injEq]
  constructor
  · rintro ⟨_, hkey, rfl, hpositions⟩
    exact ⟨hkey, hpositions.symm⟩
  · rintro ⟨hkey, hpositions⟩
    exact ⟨key, hkey, rfl, hpositions.symm⟩

theorem exists_group_iff :
    (∃ group ∈ c.indexBy field, i ∈ group.2 ∧ j ∈ group.2) ↔
      ∃ a b, c.get? i = some a ∧ c.get? j = some b ∧ a.fields.SharesKey field b.fields field := by
  simp only [Entity.sharesKey_iff]
  constructor
  · rintro ⟨group, hgroup, hi, hj⟩
    rw [(mem_indexBy.mp hgroup).2, mem_positionsOf] at hi hj
    obtain ⟨a, ha, hkey⟩ := hi
    obtain ⟨b, hb, hkey'⟩ := hj
    exact ⟨a, b, ha, hb, group.1, hkey, hkey'⟩
  · rintro ⟨a, b, ha, hb, key, hkey, hkey'⟩
    have hmem : a ∈ c.entities := List.mem_of_getElem? ha
    exact ⟨(key, c.positionsOf field key), mem_indexBy.mpr ⟨⟨a, hmem, hkey⟩, rfl⟩,
      mem_positionsOf.mpr ⟨a, ha, hkey⟩, mem_positionsOf.mpr ⟨b, hb, hkey'⟩⟩

end Collection

/-! ## Embedding -/

theorem Tie.mem_relatedTo_iff {tie : Tie} {fetched : List Entity} {owner related : Entity} :
    related ∈ tie.relatedTo fetched owner ↔ related ∈ fetched ∧
      owner.fields.SharesKey tie.sourceKey related.fields tie.targetKey := by
  rw [Entity.sharesKey_iff]
  refine ⟨Tie.mem_relatedTo, ?_⟩
  rintro ⟨hmem, key, hkey, hrelated⟩
  rw [Tie.relatedTo, hkey]
  exact List.mem_filter.mpr ⟨hmem, beq_iff_eq.mpr hrelated⟩

/-! ## Saving -/

theorem mem_missingIds_iff {column : String} {stored : List Row} {children : List Entity} {row : Row}
    {id : Value} (hrow : row ∈ stored) (hid : row.get? column = some id)
    (hkey : id.key?.isSome = true) :
    id ∈ missingIds column stored (children.map fun child => child.fieldKey? column) ↔
      ∀ child ∈ children, ¬ row.SharesKey column child.fields column := by
  obtain ⟨key, hkey⟩ := Option.isSome_iff_exists.mp hkey
  have hstored : id ∈ stored.filterMap fun row => row.get? column :=
    List.mem_filterMap.mpr ⟨row, hrow, hid⟩
  have hshares : ∀ child : Entity, row.SharesKey column child.fields column ↔
      child.fieldKey? column = some key := by
    intro child
    rw [Row.sharesKey_iff, hid, Option.bind_some, hkey]
    constructor
    · rintro ⟨_, hsame, hchild⟩
      exact hchild.trans hsame.symm
    · exact fun hchild => ⟨key, rfl, hchild⟩
  simp only [missingIds, List.mem_filter, hstored, true_and, hkey, Option.isSome_some, Bool.true_and,
    Bool.not_eq_true', List.contains_eq_mem, List.mem_map, decide_eq_false_iff_not, not_exists,
    not_and, hshares]

theorem Entity.sharesFar_iff_sharesKey {farKey : String} {pivot : Entity} {row : Row} :
    pivot.sharesFar farKey row = true ↔ pivot.fields.SharesKey farKey row farKey := by
  rw [Entity.sharesFar_iff, Row.sharesKey_iff]
  simp only [Row.hasKey_iff]
  rfl

/-- A pivot takes over a row only if they share the far key, and it goes without a row only if it
shares the far key with no row that is left. -/
theorem pairRows_sharesKey (key : Option String) (farKey : String) (pivots : List Entity)
    (stored : List Row) :
    List.Forall₂ (fun (pivot : Entity) row? =>
        (∀ row, row? = some row → pivot.fields.SharesKey farKey row farKey) ∧
        (row? = none → ∀ row ∈ (pairRows key farKey pivots stored).2,
          ¬ pivot.fields.SharesKey farKey row farKey))
      pivots (pairRows key farKey pivots stored).1 := by
  refine (pairRows_spec key farKey pivots stored).imp ?_
  rintro pivot row? ⟨htaken, hleft⟩
  refine ⟨fun row hrow => Entity.sharesFar_iff_sharesKey.mp (htaken row hrow), ?_⟩
  intro hnone row hrow hshares
  rw [← Entity.sharesFar_iff_sharesKey, hleft hnone row hrow] at hshares
  cases hshares

/-- Stale rows without ids are named once for each list of columns and keys. -/
theorem exists_named_rows {key : Option String} {rows : List Row}
    (h : staleIds? key rows = none) :
    ∃ named : List Row, staleCondition key rows = .or (named.map sameRow) ∧
      named.map rowIdentity = (rows.map rowIdentity).eraseDups := by
  refine ⟨_, ?_, map_eraseDupsBy rowIdentity rows⟩
  rw [staleCondition_eq, h]

/-! ## All of them -/

/--
Values have one key if and only if they are identical or collide, so that keys identify exactly the values
that do not collide.  Rows are brought together by an index, among the values of a field, by embedding and
by a save if and only if they share a key.
-/
theorem keys_identify_values {v w : Value} (hkey : v.key?.isSome = true)
    (hfinite : ∀ x, v = .float x → x.isFinite = true) :
    (v.key? = w.key? ↔ v.Identical w ∨ v.Collides w) ∧
    ((v.key? = w.key? ↔ v.Identical w) ↔ ¬ v.Collides w) ∧
    (∀ (c : Collection) field i j,
      (∃ group ∈ c.indexBy field, i ∈ group.2 ∧ j ∈ group.2) ↔ ∃ a b,
        c.get? i = some a ∧ c.get? j = some b ∧ a.fields.SharesKey field b.fields field) ∧
    (∀ entities field, ListsKeys entities field (distinctValues entities field)) ∧
    (∀ db (tie : Tie) finish owners owners' log log',
      tie.embed db finish owners log = ⟨.ok (), owners', log'⟩ →
        ∃ fetched, tie.fetch db finish owners owners log = ⟨.ok fetched, owners, log'⟩ ∧
          owners' = owners.map (tie.attach fetched) ∧
          ∀ owner related, related ∈ tie.relatedTo fetched owner ↔ related ∈ fetched ∧
            owner.fields.SharesKey tie.sourceKey related.fields tie.targetKey) ∧
    (∀ column stored (children : List Entity), ∀ row ∈ stored, ∀ id,
      row.get? column = some id → id.key?.isSome = true →
        (id ∈ missingIds column stored (children.map fun child => child.fieldKey? column) ↔
          ∀ child ∈ children, ¬ row.SharesKey column child.fields column)) ∧
    (∀ key farKey pivots stored, List.Forall₂ (fun (pivot : Entity) row? =>
        (∀ row, row? = some row → pivot.fields.SharesKey farKey row farKey) ∧
        (row? = none → ∀ row ∈ (pairRows key farKey pivots stored).2,
          ¬ pivot.fields.SharesKey farKey row farKey))
      pivots (pairRows key farKey pivots stored).1) ∧
    (∀ key rows, staleIds? key rows = none → ∃ named : List Row,
      staleCondition key rows = .or (named.map sameRow) ∧
        named.map rowIdentity = (rows.map rowIdentity).eraseDups) := by
  obtain ⟨key, hkey⟩ := Option.isSome_iff_exists.mp hkey
  have hiff : v.key? = w.key? ↔ v.Identical w ∨ v.Collides w := by
    constructor
    · exact fun h => Value.identical_or_collides hkey (h ▸ hkey) hfinite
    · rintro (h | h)
      · rw [hkey, Value.key?_eq_of_identical hkey h]
      · exact Value.key?_eq_of_collides h
  refine ⟨hiff, ⟨fun hexact hcollides => ?_, fun hapart => ?_⟩,
    fun c field i j => Collection.exists_group_iff, listsKeys_distinctValues, ?_,
    fun column stored children row hrow id => mem_missingIds_iff hrow, pairRows_sharesKey,
    fun key rows => exists_named_rows⟩
  · exact Value.not_identical_of_collides hcollides
      (hexact.mp (Value.key?_eq_of_collides hcollides))
  · rw [hiff, or_iff_left hapart]
  · intro db tie finish owners owners' log log' hrun
    obtain ⟨fetched, hfetch, rfl⟩ := Tie.exists_of_run_embed hrun
    exact ⟨fetched, hfetch, tie.attachAll_eq fetched owners, fun _ _ => Tie.mem_relatedTo_iff⟩

/-- An integer is identical with the floating-point number of its size. -/
theorem keys_identify_three :
    (Value.integer 3).key?.isSome = true ∧
      (∀ x, Value.integer 3 = .float x → x.isFinite = true) ∧
      (Value.integer 3).Identical (.float ⟨0x4008000000000000⟩) ∧
      ¬ (Value.integer 3).Collides (.float ⟨0x4008000000000000⟩) ∧
      (Value.integer 3).key? = (Value.float ⟨0x4008000000000000⟩).key? := by
  have hwhole : Binary64.whole? ⟨0x4008000000000000⟩ = some 3 := by decide +kernel
  have hidentical : (Value.integer 3).Identical (.float ⟨0x4008000000000000⟩) :=
    .number (Value.rational?_eq_iff.mpr rfl) (Value.rational?_eq_iff.mpr hwhole)
  obtain ⟨hkeys, hexact, -⟩ := keys_identify_values (v := .integer 3)
    (w := .float ⟨0x4008000000000000⟩) rfl (by simp)
  have hkey := hkeys.mpr (.inl hidentical)
  exact ⟨rfl, by simp, hidentical, hexact.mp (iff_of_true hkey hidentical), hkey⟩

def Entity.weighing (weight : Value) : Entity :=
  (Entity.new "Model").set "weight" weight

/-- The floating-point numbers `2 ^ 63` and `2 ^ 64` share a key, so that one of them is taken for both. -/
theorem keys_mix_large_numbers :
    (Value.float ⟨0x43e0000000000000⟩).key? = (Value.float ⟨0x43f0000000000000⟩).key? ∧
      (Value.float ⟨0x43e0000000000000⟩).rational? = some ((2 ^ 63 : Int) : ℚ) ∧
      (Value.float ⟨0x43f0000000000000⟩).rational? = some ((2 ^ 64 : Int) : ℚ) ∧
      ¬ (Value.float ⟨0x43e0000000000000⟩).Identical (.float ⟨0x43f0000000000000⟩) ∧
      distinctValues
          [.weighing (.float ⟨0x43e0000000000000⟩), .weighing (.float ⟨0x43f0000000000000⟩)]
          "weight" =
        [.float ⟨0x43e0000000000000⟩] := by
  have hless : (Value.float ⟨0x43e0000000000000⟩).rational? = some ((2 ^ 63 : Int) : ℚ) :=
    Value.rational?_eq_iff.mpr (by decide +kernel)
  have hmore : (Value.float ⟨0x43f0000000000000⟩).rational? = some ((2 ^ 64 : Int) : ℚ) :=
    Value.rational?_eq_iff.mpr (by decide +kernel)
  have hcollides : (Value.float ⟨0x43e0000000000000⟩).Collides (.float ⟨0x43f0000000000000⟩) :=
    ⟨_, _, hless, hmore, by decide, .inl (by decide)⟩
  exact ⟨Value.key?_eq_of_collides hcollides, hless, hmore,
    Value.not_identical_of_collides hcollides, rfl⟩

end RecordMapper
