import RecordMapper.Proofs.Rows
import RecordMapper.Proofs.Session.Claiming
import RecordMapper.Proofs.Value.Agreement

/-!
# The condition on stale rows

`selects_staleCondition` says which rows the condition is true of: those with the id of a stale row,
or those with all values of a stale row when not every stale row has an id.  A row that has the same
key in every column as an earlier one is not named again, so that for some values a stale row can
be missed; `selects_of_isPlain` says for which it cannot.
-/

namespace RecordMapper

/-! ## Representatives -/

section

variable {α β : Type} [BEq β] [LawfulBEq β]

private theorem length_filter_lt (p : α → Bool) (first : α) (rest : List α) :
    (rest.filter p).length < (first :: rest).length := by
  have hle := List.length_filter_le p rest
  rw [List.length_cons]
  omega

theorem mem_of_mem_eraseDupsBy {r : α → α → Bool} {a : α} :
    (items : List α) → a ∈ items.eraseDupsBy r → a ∈ items
  | [], h => h
  | first :: rest, h => by
      rw [List.eraseDupsBy_cons] at h
      rcases List.mem_cons.mp h with rfl | hrest
      · exact List.mem_cons_self
      · have hmem := mem_of_mem_eraseDupsBy _ hrest
        exact List.mem_cons_of_mem first (List.mem_filter.mp hmem).1
termination_by items => items.length
decreasing_by exact length_filter_lt _ first rest

theorem exists_mem_eraseDupsBy (f : α → β) {a : α} :
    (items : List α) → a ∈ items → ∃ b ∈ items.eraseDupsBy fun a b => f a == f b, f b = f a
  | [], h => by cases h
  | first :: rest, h => by
      rw [List.eraseDupsBy_cons]
      by_cases hfirst : f first = f a
      · exact ⟨first, List.mem_cons_self, hfirst⟩
      · have hrest : a ∈ rest.filter fun b => (f b == f first) = false := by
          rw [List.mem_filter]
          refine ⟨(List.mem_cons.mp h).resolve_left fun heq => hfirst (by rw [heq]), ?_⟩
          simpa using fun heq => hfirst heq.symm
        obtain ⟨b, hb, hclass⟩ := exists_mem_eraseDupsBy f _ hrest
        exact ⟨b, List.mem_cons_of_mem first hb, hclass⟩
termination_by items => items.length
decreasing_by exact length_filter_lt _ first rest

omit [LawfulBEq β] in
theorem map_eraseDupsBy (f : α → β) :
    (items : List α) → (items.eraseDupsBy fun a b => f a == f b).map f = (items.map f).eraseDups
  | [] => rfl
  | first :: rest => by
      have hothers : (rest.filter fun b => (f b == f first) = false).map f =
          (rest.map f).filter fun b => !b == f first := by
        simp [List.filter_map, Function.comp_def]
      rw [List.eraseDupsBy_cons, List.map_cons, List.map_cons, List.eraseDups_cons,
        map_eraseDupsBy f _, hothers]
termination_by items => items.length
decreasing_by exact length_filter_lt _ first rest

end

/-! ## What names a row -/

namespace Row

/-- Whether a row has in a column the value that is written there, null included. -/
def holds (row : Row) (column : String) (value : Value) : Prop :=
  if value.isNull then (row.read (.ofPath column)).isNull = true
  else (row.read (.ofPath column)).compare value.written = some true

end Row

theorem selects_sameValue {column : String} {value : Value} {row : Row} :
    (sameValue column value).selects row ↔ row.holds column value := by
  rw [sameValue, Row.holds]
  split
  · exact Condition.selects_isNull
  · exact Condition.selects_eq

theorem selects_sameRow {row other : Row} :
    (sameRow row).selects other ↔ ∀ pair ∈ row.pairs, other.holds pair.1 pair.2 := by
  simp only [sameRow, Condition.selects_and, List.forall_mem_map, selects_sameValue]

/-- The column of the key and the ids in it, if every row has one. -/
def staleIds? (key : Option String) (rows : List Row) : Option (String × List Value) :=
  key.bind fun column => (idsOf? column rows).map fun ids => (column, ids)

/-- The values by which stale rows are named: the id of each, or all values of one of each kind. -/
def staleNames (key : Option String) (rows : List Row) : List (List (String × Value)) :=
  match staleIds? key rows with
  | some (column, ids) => ids.map fun id => [(column, id)]
  | none => (rows.eraseDupsBy fun a b => rowIdentity a == rowIdentity b).map Row.pairs

/-- Whether a row has all values of a name. -/
def Row.isNamed (row : Row) (names : List (List (String × Value))) : Prop :=
  ∃ name ∈ names, ∀ pair ∈ name, row.holds pair.1 pair.2

theorem idsOf?_cons {column : String} {row : Row} {rest : List Row} {ids : List Value}
    (h : idsOf? column (row :: rest) = some ids) : ∃ id others, row.get? column = some id ∧
      id.key?.isSome = true ∧ idsOf? column rest = some others ∧ ids = id :: others := by
  rw [idsOf?, List.mapM_cons, Option.bind_eq_bind, Option.bind_eq_some_iff] at h
  obtain ⟨id, hid, h⟩ := h
  rw [Option.bind_eq_bind, Option.bind_eq_some_iff] at h
  obtain ⟨others, hothers, hids⟩ := h
  rw [Option.filter_eq_some_iff] at hid
  exact ⟨id, others, hid.1, hid.2, hothers, (Option.some.inj hids).symm⟩

theorem mem_idsOf? {column : String} {rows : List Row} {ids : List Value}
    (h : idsOf? column rows = some ids) (id : Value) :
    id ∈ ids ↔ id.key?.isSome = true ∧ ∃ row ∈ rows, row.get? column = some id := by
  induction rows generalizing ids with
  | nil =>
      cases h
      simp
  | cons row rest ih =>
      obtain ⟨own, others, hown, hkey, hothers, rfl⟩ := idsOf?_cons h
      rw [List.mem_cons, ih hothers]
      constructor
      · rintro (rfl | ⟨hid, other, hother, hvalue⟩)
        · exact ⟨hkey, row, List.mem_cons_self, hown⟩
        · exact ⟨hid, other, List.mem_cons_of_mem row hother, hvalue⟩
      · rintro ⟨hid, other, hother, hvalue⟩
        rcases List.mem_cons.mp hother with rfl | hrest
        · exact .inl (Option.some.inj (hvalue.symm.trans hown))
        · exact .inr ⟨hid, other, hrest, hvalue⟩

theorem exists_id_of_idsOf? {column : String} {rows : List Row} {ids : List Value}
    (h : idsOf? column rows = some ids) {row : Row} (hrow : row ∈ rows) :
    ∃ id ∈ ids, row.get? column = some id := by
  induction rows generalizing ids with
  | nil => cases hrow
  | cons first rest ih =>
      obtain ⟨id, others, hid, -, hothers, rfl⟩ := idsOf?_cons h
      rcases List.mem_cons.mp hrow with rfl | hrest
      · exact ⟨id, List.mem_cons_self, hid⟩
      · obtain ⟨own, hown, hvalue⟩ := ih hothers hrest
        exact ⟨own, List.mem_cons_of_mem id hown, hvalue⟩

theorem isNull_of_isSome_key? {value : Value} (h : value.key?.isSome = true) :
    value.isNull = false := by
  cases value with
  | null => cases h
  | _ => rfl

theorem idsOf?_of_staleIds? {key : Option String} {rows : List Row} {column : String}
    {ids : List Value} (h : staleIds? key rows = some (column, ids)) :
    key = some column ∧ idsOf? column rows = some ids := by
  rw [staleIds?, Option.bind_eq_some_iff] at h
  obtain ⟨own, rfl, h⟩ := h
  rw [Option.map_eq_some_iff] at h
  obtain ⟨_, hids, hpair⟩ := h
  cases hpair
  exact ⟨rfl, hids⟩

theorem staleCondition_eq (key : Option String) (rows : List Row) :
    staleCondition key rows = match staleIds? key rows with
      | some (column, ids) => .inList (.ofPath column) ids
      | none => .or ((rows.eraseDupsBy fun a b => rowIdentity a == rowIdentity b).map sameRow) :=
  rfl

/-- Stale rows are deleted by the keys of all of them, or rows among them by all their values. -/
theorem staleCondition_cases (key : Option String) (rows : List Row) :
    (∃ column ids, key = some column ∧ idsOf? column rows = some ids ∧
      staleCondition key rows = .inList (.ofPath column) ids) ∨
    ∃ others, others ⊆ rows ∧ (rows ≠ [] → others ≠ []) ∧
      staleCondition key rows = .or (others.map sameRow) := by
  rw [staleCondition_eq]
  cases hids : staleIds? key rows with
  | some named =>
      obtain ⟨column, ids⟩ := named
      obtain ⟨hkey, hvalues⟩ := idsOf?_of_staleIds? hids
      exact .inl ⟨column, ids, hkey, hvalues, rfl⟩
  | none =>
      refine .inr ⟨_, fun row hrow => mem_of_mem_eraseDupsBy rows hrow, fun hrows => ?_, rfl⟩
      obtain ⟨row, hrow⟩ := List.exists_mem_of_ne_nil rows hrows
      obtain ⟨other, hother, -⟩ := exists_mem_eraseDupsBy rowIdentity rows hrow
      exact List.ne_nil_of_mem hother

/-- The condition on stale rows is true of the rows that have all values of a name. -/
theorem selects_staleCondition {key : Option String} {rows : List Row} {row : Row} :
    (staleCondition key rows).selects row ↔ row.isNamed (staleNames key rows) := by
  rw [staleCondition_eq, staleNames, Row.isNamed]
  cases hids : staleIds? key rows with
  | none => simp [Condition.selects_or, selects_sameRow]
  | some named =>
      obtain ⟨column, ids⟩ := named
      have hmem := mem_idsOf? (idsOf?_of_staleIds? hids).2
      simp only [Condition.selects_inList, List.mem_map, exists_exists_and_eq_and,
        List.forall_mem_singleton]
      refine exists_congr fun id => and_congr_right fun hid => ?_
      have hnull := isNull_of_isSome_key? ((hmem id).mp hid).1
      rw [Row.holds, hnull, if_neg (by simp)]
      exact Condition.selects_eq

/-! ## Plain rows -/

namespace Row

/-- Whether all columns have plain values, and names without a dot that would cut them. -/
def IsPlain (row : Row) : Prop :=
  ∀ pair ∈ row.pairs, FieldRef.ofPath pair.1 = ⟨none, pair.1⟩ ∧ pair.2.isPlain = true

/-- The key of the value in a column. -/
def key? (row : Row) (column : String) : Option Key :=
  (row.get? column).bind Value.key?

theorem key?_of_mem {row : Row} {pair : String × Value} (h : pair ∈ row.pairs) :
    row.key? pair.1 = pair.2.key? := by
  rw [key?, get?_eq_some_iff.mpr h, Option.bind_some]

theorem key?_eq_key?_read {row : Row} {column : String}
    (hcolumn : FieldRef.ofPath column = ⟨none, column⟩) :
    row.key? column = (row.read (.ofPath column)).key? := by
  rw [hcolumn]
  change (row.get? column).bind Value.key? = ((row.get? column).getD .null).key?
  cases row.get? column <;> rfl

theorem isPlain_read {row : Row} (h : row.IsPlain) (ref : FieldRef) :
    (row.read ref).isPlain = true := by
  rw [read]
  split
  next =>
      cases hvalue : row.get? ref.name with
      | none => rfl
      | some value => exact (h _ (get?_eq_some_iff.mp hvalue)).2
  next => rfl

theorem holds_iff {row : Row} {column : String} {value : Value} (hrow : row.IsPlain)
    (hcolumn : FieldRef.ofPath column = ⟨none, column⟩) (hvalue : value.isPlain = true) :
    row.holds column value ↔ row.key? column = value.key? := by
  have hread := isPlain_read hrow (.ofPath column)
  rw [holds, key?_eq_key?_read hcolumn]
  split
  next hnull =>
      rw [(Value.isNull_iff_key?_eq_none hvalue).mp hnull]
      exact Value.isNull_iff_key?_eq_none hread
  next hnull => exact Value.compare_written_iff hread hvalue (Bool.eq_false_iff.mpr hnull)

/-- Whether a row has the id of one of the rows, if each has one, or else all keys of one. -/
def resembles (row : Row) (key : Option String) (rows : List Row) : Prop :=
  match staleIds? key rows with
  | some (column, _) => ∃ other ∈ rows, row.key? column = other.key? column
  | none => ∃ other ∈ rows, ∀ pair ∈ other.pairs, row.key? pair.1 = pair.2.key?

theorem resembles_self {key : Option String} {rows : List Row} {row : Row} (h : row ∈ rows) :
    row.resembles key rows := by
  rw [resembles]
  split
  · exact ⟨row, h, rfl⟩
  · exact ⟨row, h, fun pair hpair => key?_of_mem hpair⟩

/-- Rows of one identity are named by the same keys. -/
theorem key?_of_rowIdentity_eq {row other another : Row}
    (hidentity : rowIdentity other = rowIdentity another)
    (h : ∀ pair ∈ another.pairs, row.key? pair.1 = pair.2.key?) :
    ∀ pair ∈ other.pairs, row.key? pair.1 = pair.2.key? := by
  intro pair hpair
  have hmem : (pair.1, pair.2.key?) ∈ rowIdentity another := by
    rw [← hidentity, rowIdentity, List.mem_map]
    exact ⟨pair, hpair, rfl⟩
  rw [rowIdentity, List.mem_map] at hmem
  obtain ⟨twin, htwin, hsame⟩ := hmem
  obtain ⟨hcolumn, hkey⟩ := Prod.mk.inj hsame
  rw [← hcolumn, ← hkey]
  exact h twin htwin

/-- For plain rows, what names stale rows names exactly the rows that resemble one. -/
theorem isNamed_iff_resembles {key : Option String} {rows : List Row} {row : Row}
    (hrows : ∀ other ∈ rows, other.IsPlain) (hrow : row.IsPlain) :
    row.isNamed (staleNames key rows) ↔ row.resembles key rows := by
  rw [isNamed, staleNames, resembles]
  cases hids : staleIds? key rows with
  | some named =>
      -- each name is one id, and a plain value is told from others by its key
      obtain ⟨column, ids⟩ := named
      have hmem := mem_idsOf? (idsOf?_of_staleIds? hids).2
      simp only [List.mem_map, exists_exists_and_eq_and, List.forall_mem_singleton]
      constructor
      · rintro ⟨id, hid, hholds⟩
        obtain ⟨-, other, hother, hvalue⟩ := (hmem id).mp hid
        have hpair := get?_eq_some_iff.mp hvalue
        obtain ⟨hcolumn, hplain⟩ := hrows other hother _ hpair
        refine ⟨other, hother, ?_⟩
        rw [(holds_iff hrow hcolumn hplain).mp hholds]
        exact (key?_of_mem hpair).symm
      · rintro ⟨other, hother, hsame⟩
        obtain ⟨id, hid, hvalue⟩ := exists_id_of_idsOf? (idsOf?_of_staleIds? hids).2 hother
        have hpair := get?_eq_some_iff.mp hvalue
        obtain ⟨hcolumn, hplain⟩ := hrows other hother _ hpair
        refine ⟨id, hid, (holds_iff hrow hcolumn hplain).mpr ?_⟩
        rw [hsame]
        exact key?_of_mem hpair
  | none =>
      -- a name is all of a row, but of rows with the same identity only the first is left
      simp only [List.mem_map, exists_exists_and_eq_and]
      have hholds : ∀ other ∈ rows, (∀ pair ∈ other.pairs, row.holds pair.1 pair.2) ↔
          ∀ pair ∈ other.pairs, row.key? pair.1 = pair.2.key? := by
        intro other hother
        refine forall₂_congr fun pair hpair => ?_
        obtain ⟨hcolumn, hplain⟩ := hrows other hother pair hpair
        exact holds_iff hrow hcolumn hplain
      constructor
      · rintro ⟨other, hother, hall⟩
        have hmem := mem_of_mem_eraseDupsBy rows hother
        exact ⟨other, hmem, (hholds other hmem).mp hall⟩
      · rintro ⟨another, hanother, hall⟩
        obtain ⟨other, hother, hidentity⟩ := exists_mem_eraseDupsBy rowIdentity rows hanother
        have hmem := mem_of_mem_eraseDupsBy rows hother
        exact ⟨other, hother, (hholds other hmem).mpr (key?_of_rowIdentity_eq hidentity hall)⟩

end Row

end RecordMapper
