import Mathlib.Data.List.Perm.Subperm
import RecordMapper.Proofs.Attempt
import RecordMapper.Proofs.Pointwise
import RecordMapper.Proofs.Rows
import RecordMapper.Statement.Insert

/-!
# Rows of an insert

Every row of an insert becomes a tuple in the order of the columns of the first row, each value
looked up by its column.  A tuple carries its row, every value once and under its own column, unless
a column is named twice: `render_carries_rows`.
-/

namespace RecordMapper

namespace Insert

/-! ## Tuples -/

/-- A column has one value, however often the row names it. -/
def OneValueEach (row : List (String × Value)) : Prop :=
  ∀ pair ∈ row, ∀ other ∈ row, pair.1 = other.1 → pair.2 = other.2

/-- Below the columns the tuple has the pairs of a row, each of them once. -/
structure Carries (columns : List String) (row : List (String × Value)) (tuple : List Value) :
    Prop where
  size : tuple.length = columns.length
  pairs : (columns.zip tuple).Perm row

/-- The tuple has for every column the value that a row of the same size gives it first. -/
structure Follows (columns : List String) (row : List (String × Value)) (tuple : List Value) :
    Prop where
  size : row.length = columns.length
  values : List.Forall₂ (fun column value => row.lookup column = some value) columns tuple

section Tuples

variable {columns : List String} {row pairs : List (String × Value)} {tuple : List Value}

theorem exists_lookup_iff {name : String} :
    (∃ value, row.lookup name = some value) ↔ name ∈ row.map Prod.fst := by
  constructor
  · rintro ⟨value, hvalue⟩
    obtain ⟨front, back, rfl, -⟩ := List.lookup_eq_some_iff.mp hvalue
    simp
  · intro hname
    obtain ⟨pair, hpair, rfl⟩ := List.mem_map.mp hname
    cases hlookup : row.lookup pair.1 with
    | some value => exact ⟨value, rfl⟩
    | none => simpa using List.lookup_eq_none_iff.mp hlookup pair hpair

theorem oneValueEach_iff :
    OneValueEach row ↔ ∀ pair ∈ row, row.lookup pair.1 = some pair.2 := by
  constructor
  · intro h pair hpair
    obtain ⟨value, hvalue⟩ := exists_lookup_iff.mpr (List.mem_map_of_mem hpair)
    obtain ⟨front, back, hrow, -⟩ := List.lookup_eq_some_iff.mp hvalue
    rw [hvalue, h pair hpair (pair.1, value) (by rw [hrow]; simp) rfl]
  · intro h pair hpair other hother hname
    have hpairs := h pair hpair
    rw [hname, h other hother] at hpairs
    exact (Option.some.inj hpairs).symm

theorem oneValueEach_of_nodup (h : (row.map Prod.fst).Nodup) : OneValueEach row :=
  oneValueEach_iff.mpr fun _ hpair => (lookup_eq_some_iff_mem h).mpr hpair

theorem eq_map_lookup (h : ∀ pair ∈ pairs, row.lookup pair.1 = some pair.2) :
    pairs = (pairs.map Prod.fst).map fun name => (name, (row.lookup name).getD .null) := by
  rw [List.map_map]
  refine (List.map_id pairs).symm.trans (List.map_congr_left fun pair hpair => ?_)
  change pair = (pair.1, (row.lookup pair.1).getD .null)
  rw [h pair hpair, Option.getD_some]

theorem Follows.names (h : Follows columns row tuple) : columns ⊆ row.map Prod.fst := by
  intro column hcolumn
  obtain ⟨value, -, hvalue⟩ := exists_of_mem_left h.values hcolumn
  exact exists_lookup_iff.mp ⟨value, hvalue⟩

/-- A tuple of looked-up values carries its row if and only if the row names the columns, each as
often, and gives a column one value. -/
theorem carries_iff (h : Follows columns row tuple) :
    Carries columns row tuple ↔ columns.Perm (row.map Prod.fst) ∧ OneValueEach row := by
  have hlength := h.values.length_eq
  have hzip : ∀ pair ∈ columns.zip tuple, row.lookup pair.1 = some pair.2 :=
    fun _ hpair => List.forall₂_zip h.values hpair
  have hnames : (columns.zip tuple).map Prod.fst = columns :=
    List.map_fst_zip (Nat.le_of_eq hlength)
  constructor
  · rintro ⟨-, hpairs⟩
    refine ⟨hnames ▸ hpairs.map Prod.fst, oneValueEach_iff.mpr fun pair hpair => ?_⟩
    exact hzip pair (hpairs.mem_iff.mpr hpair)
  · rintro ⟨hcolumns, hvalues⟩
    refine ⟨hlength.symm, ?_⟩
    rw [eq_map_lookup hzip, hnames]
    refine (hcolumns.map _).trans (.of_eq ?_)
    exact (eq_map_lookup (oneValueEach_iff.mp hvalues)).symm

/-- Of as many pairs as there are distinct columns, each belongs to a column of its own. -/
theorem carries_of_nodup (hcolumns : columns.Nodup) (h : Follows columns row tuple) :
    Carries columns row tuple := by
  have hperm : columns.Perm (row.map Prod.fst) :=
    (List.subperm_of_subset hcolumns h.names).perm_of_length_le (by simp [h.size])
  exact (carries_iff h).mpr ⟨hperm, oneValueEach_of_nodup (hperm.nodup hcolumns)⟩

theorem exists_follows_iff :
    (∃ tuple, Follows columns row tuple) ↔
      row.length = columns.length ∧ columns ⊆ row.map Prod.fst := by
  constructor
  · rintro ⟨tuple, h⟩
    exact ⟨h.size, h.names⟩
  · rintro ⟨hsize, hcolumns⟩
    refine ⟨columns.map fun column => (row.lookup column).getD .null, hsize, ?_⟩
    rw [List.forall₂_map_right_iff, List.forall₂_same]
    intro column hcolumn
    obtain ⟨value, hvalue⟩ := exists_lookup_iff.mpr (hcolumns hcolumn)
    rw [hvalue, Option.getD_some]

end Tuples

end Insert

/-! ## Texts -/

namespace Modifiers

/-- The modifiers of a statement that allows them. -/
def text (modifiers : Modifiers) : String :=
  String.join (modifiers.toList.map fun modifier => " " ++ modifier.text)

theorem mem_toList {modifiers : Modifiers} {modifier : Modifier} :
    modifier ∈ modifiers.toList ↔ modifiers.contains modifier = true := by
  have hall : modifier ∈ Modifier.all := by
    cases modifier with
    | _ => decide
  rw [toList, List.mem_filter]
  exact and_iff_right hall

/-- Whether a kind of statement allows all the modifiers. -/
def Supported (d : Dialect) (kind : StatementKind) (modifiers : Modifiers) : Prop :=
  ∀ modifier, modifiers.contains modifier = true → d.supportsModifier kind modifier = true

end Modifiers

theorem modifiersText_eq_ok {d : Dialect} {kind : StatementKind} {modifiers : Modifiers}
    {text : String} :
    modifiersText d kind modifiers = .ok text ↔
      modifiers.Supported d kind ∧ modifiers.text = text := by
  -- One modifier after the other has its text, or none of the statement is written.
  have hone : ∀ modifier text,
      (if d.supportsModifier kind modifier = true then Except.ok (" " ++ modifier.text)
        else Except.error (Error.modifierUnsupported modifier d)) = (.ok text : Attempt String) ↔
      d.supportsModifier kind modifier = true ∧ " " ++ modifier.text = text := by
    intro modifier text
    split
    next h => simp [h]
    next h => simp [h]
  rw [modifiersText, attempt_bind_eq_ok]
  simp only [attempt_mapM_eq_ok, hone, List.forall₂_and_left, Modifiers.mem_toList]
  have hmap : ∀ texts, List.Forall₂ (fun modifier text => " " ++ Modifier.text modifier = text)
      modifiers.toList texts ↔ modifiers.toList.map (fun modifier => " " ++ modifier.text) = texts := by
    intro texts
    rw [← List.forall₂_map_left_iff (R := Eq), List.forall₂_eq_eq_eq]
  constructor
  · rintro ⟨texts, ⟨hsupported, htexts⟩, h⟩
    refine ⟨hsupported, ?_⟩
    rw [Modifiers.text, (hmap texts).mp htexts]
    exact Except.ok.inj h
  · rintro ⟨hsupported, rfl⟩
    exact ⟨_, ⟨hsupported, (hmap _).mpr rfl⟩, rfl⟩

namespace Dialect

def tupleText (d : Dialect) (tuple : List Value) : String :=
  parenthesize (", ".intercalate (tuple.map d.literal))

def insertText (d : Dialect) (modifiers : Modifiers) (table : String) (columns : List String)
    (tuples : List (List Value)) : String :=
  "INSERT" ++ modifiers.text ++ " " ++ "INTO" ++ " " ++ d.quotePath table ++ " " ++
    parenthesize (", ".intercalate (columns.map d.quoteIdentifier)) ++ " " ++ "VALUES" ++ " " ++
    ", ".intercalate (tuples.map d.tupleText)

end Dialect

namespace Insert

variable {d : Dialect}

section Texts

variable {columns : List String} {row : List (String × Value)}

theorem rowValues_eq_ok {values : List Value} :
    rowValues row columns = .ok values ↔
      List.Forall₂ (fun column value => row.lookup column = some value) columns values := by
  induction columns generalizing values with
  | nil =>
      rw [List.forall₂_nil_left_iff]
      exact ⟨fun h => (Except.ok.inj h).symm, fun h => congrArg Except.ok h.symm⟩
  | cons column rest ih =>
      rw [rowValues, List.forall₂_cons_left_iff]
      cases hlookup : row.lookup column with
      | none => simp
      | some value =>
          change (rowValues row rest >>= fun others => Except.ok (value :: others)) = _ ↔ _
          rw [attempt_bind_eq_ok]
          constructor
          · rintro ⟨others, hothers, h⟩
            exact ⟨value, others, rfl, ih.mp hothers, (Except.ok.inj h).symm⟩
          · rintro ⟨_, others, hvalue, hothers, rfl⟩
            cases hvalue
            exact ⟨others, ih.mpr hothers, rfl⟩

theorem rowValues_self (h : (row.map Prod.fst).Nodup) :
    rowValues row (row.map Prod.fst) = .ok (row.map Prod.snd) := by
  rw [rowValues_eq_ok, List.forall₂_map_left_iff, List.forall₂_map_right_iff, List.forall₂_same]
  exact oneValueEach_iff.mp (oneValueEach_of_nodup h)

theorem rowText_eq_ok {text : String} :
    rowText d columns row = .ok text ↔
      ∃ tuple, Follows columns row tuple ∧ d.tupleText tuple = text := by
  unfold rowText
  split
  next hsize =>
      rw [attempt_bind_eq_ok]
      constructor
      · rintro ⟨tuple, hvalues, h⟩
        exact ⟨tuple, ⟨hsize, rowValues_eq_ok.mp hvalues⟩, Except.ok.inj h⟩
      · rintro ⟨tuple, hfollows, rfl⟩
        exact ⟨tuple, rowValues_eq_ok.mpr hfollows.values, rfl⟩
  next hsize =>
      refine ⟨nofun, ?_⟩
      rintro ⟨tuple, hfollows, -⟩
      exact absurd hfollows.size hsize

theorem mapM_rowText_eq_ok {rows : List (List (String × Value))} {texts : List String} :
    rows.mapM (rowText d columns) = .ok texts ↔
      ∃ tuples, List.Forall₂ (Follows columns) rows tuples ∧ tuples.map d.tupleText = texts := by
  rw [attempt_mapM_eq_ok]
  simp only [rowText_eq_ok]
  induction rows generalizing texts with
  | nil => simp [List.forall₂_nil_left_iff, eq_comm]
  | cons row rest ih =>
      constructor
      · rintro (_ | ⟨⟨tuple, hfollows, rfl⟩, hrest⟩)
        obtain ⟨tuples, htuples, rfl⟩ := ih.mp hrest
        exact ⟨tuple :: tuples, .cons hfollows htuples, rfl⟩
      · rintro ⟨_, _ | ⟨hfollows, htuples⟩, rfl⟩
        exact .cons ⟨_, hfollows, rfl⟩ (ih.mpr ⟨_, htuples, rfl⟩)

theorem rowsText_eq_ok {first : List (String × Value)} (hfirst : first.isEmpty = false)
    {rows : List (List (String × Value))} {text : String} :
    rowsText d first rows = .ok text ↔
      ∃ tuples, List.Forall₂ (Follows (first.map Prod.fst)) rows tuples ∧
        parenthesize (", ".intercalate ((first.map Prod.fst).map d.quoteIdentifier)) ++ " " ++
          Keyword.values.text ++ " " ++ ", ".intercalate (tuples.map d.tupleText) = text := by
  rw [rowsText, hfirst, if_neg (by simp), attempt_bind_eq_ok]
  constructor
  · rintro ⟨texts, htexts, h⟩
    obtain ⟨tuples, htuples, rfl⟩ := mapM_rowText_eq_ok.mp htexts
    exact ⟨tuples, htuples, Except.ok.inj h⟩
  · rintro ⟨tuples, htuples, rfl⟩
    exact ⟨_, mapM_rowText_eq_ok.mpr ⟨tuples, htuples, rfl⟩, rfl⟩

/-- The columns that a statement returns can be written. -/
def Returnable (d : Dialect) (returning : List Column) : Prop :=
  returning = [] ∨
    d.supportsReturning = true ∧ ∃ text, renderColumns d true returning = .ok text

theorem exists_returningText_iff {returning : List Column} :
    (∃ text, returningText d returning = .ok text) ↔ Returnable d returning := by
  unfold returningText Returnable
  split
  next hempty =>
      exact ⟨fun _ => .inl (List.isEmpty_iff.mp hempty), fun _ => ⟨"", rfl⟩⟩
  next hsome =>
      have hne : returning ≠ [] := by simpa using hsome
      split
      next hsupported =>
          simp only [attempt_bind_eq_ok, hne, hsupported, false_or, true_and]
          exact ⟨fun ⟨_, text, htext, _⟩ => ⟨text, htext⟩, fun ⟨text, htext⟩ => ⟨_, text, htext, rfl⟩⟩
      next hsupported => simp [hne, hsupported]

end Texts

/-! ## Statements -/

/-- The columns of an insert are those of its first row. -/
def columns (s : Insert) : List String :=
  (s.rows.head?.getD []).map Prod.fst

variable {s : Insert} {table sql : String}

theorem exists_first_row (h : s.columns ≠ []) :
    ∃ first more, s.rows = first :: more ∧ first.isEmpty = false ∧
      s.columns = first.map Prod.fst := by
  cases hrows : s.rows with
  | nil => simp [columns, hrows] at h
  | cons first more =>
      have hcolumns : s.columns = first.map Prod.fst := by simp [columns, hrows]
      refine ⟨first, more, rfl, ?_, hcolumns⟩
      simpa [hcolumns] using h

theorem render_eq_ok (htable : s.table = some table) (hcolumns : s.columns ≠ []) :
    s.render d = .ok sql ↔ s.modifiers.Supported d .insert ∧
      ∃ tuples, List.Forall₂ (Follows s.columns) s.rows tuples ∧
      ∃ returning, returningText d s.returning = .ok returning ∧
        d.insertText s.modifiers table s.columns tuples ++ returning = sql := by
  obtain ⟨first, more, hrows, hfirst, hnames⟩ := exists_first_row hcolumns
  have hrender : s.render d = modifiersText d .insert s.modifiers >>= fun modifiersSql =>
      rowsText d first s.rows >>= fun rowsSql =>
      returningText d s.returning >>= fun returningSql =>
        .ok (Keyword.insert.text ++ modifiersSql ++ " " ++ Keyword.into.text ++ " " ++
          d.quotePath table ++ " " ++ rowsSql ++ returningSql) := by
    rw [hrows, render, htable, hrows]
    rfl
  have htext : ∀ tuples returning, "INSERT" ++ s.modifiers.text ++ " " ++ "INTO" ++ " " ++
      d.quotePath table ++ " " ++
        (parenthesize (", ".intercalate (s.columns.map d.quoteIdentifier)) ++ " " ++ "VALUES" ++
          " " ++ ", ".intercalate (tuples.map d.tupleText)) ++ returning =
      d.insertText s.modifiers table s.columns tuples ++ returning := by
    intro tuples returning
    unfold Dialect.insertText
    simp only [String.append_assoc]
  rw [hrender, attempt_bind_eq_ok]
  simp only [modifiersText_eq_ok, attempt_bind_eq_ok, rowsText_eq_ok hfirst, ← hnames]
  constructor
  · rintro ⟨_, ⟨hsupported, rfl⟩, _, ⟨tuples, htuples, rfl⟩, returning, hreturning, h⟩
    refine ⟨hsupported, tuples, htuples, returning, hreturning, ?_⟩
    exact (htext tuples returning).symm.trans (Except.ok.inj h)
  · rintro ⟨hsupported, tuples, htuples, returning, hreturning, rfl⟩
    refine ⟨_, ⟨hsupported, rfl⟩, _, ⟨tuples, htuples, rfl⟩, returning, hreturning, ?_⟩
    exact congrArg Except.ok (htext tuples returning)

theorem render_succeeds_iff (htable : s.table = some table) (hcolumns : s.columns ≠ []) :
    (∃ sql, s.render d = .ok sql) ↔ s.modifiers.Supported d .insert ∧ Returnable d s.returning ∧
      ∀ row ∈ s.rows, row.length = s.columns.length ∧ s.columns ⊆ row.map Prod.fst := by
  have hfollows : (∃ tuples, List.Forall₂ (Follows s.columns) s.rows tuples) ↔ _ :=
    exists_forall₂_iff.trans (forall₂_congr fun row _ => exists_follows_iff)
  rw [← exists_returningText_iff, ← hfollows]
  simp only [render_eq_ok htable hcolumns]
  constructor
  · rintro ⟨sql, hmodifiers, tuples, htuples, returning, hreturning, -⟩
    exact ⟨hmodifiers, ⟨returning, hreturning⟩, tuples, htuples⟩
  · rintro ⟨hmodifiers, ⟨returning, hreturning⟩, tuples, htuples⟩
    exact ⟨_, hmodifiers, tuples, htuples, returning, hreturning, rfl⟩

/-- An insert is written if and only if every row has as many values as the first and one for each of
its columns; so it is if all rows are permutations of the same columns.  Each row becomes a tuple, in
the order of the rows.  The tuple carries its row if and only if the row names the columns as often as
the first row does, and none of them with different values.  Every value is written once and under its
own column if the first row names no column twice. -/
theorem render_carries_rows (htable : s.table = some table) (hcolumns : s.columns ≠ []) :
    ((∃ sql, s.render d = .ok sql) ↔ s.modifiers.Supported d .insert ∧ Returnable d s.returning ∧
      ∀ row ∈ s.rows, row.length = s.columns.length ∧ s.columns ⊆ row.map Prod.fst) ∧
    (s.modifiers.Supported d .insert → Returnable d s.returning →
      (∀ row ∈ s.rows, s.columns.Perm (row.map Prod.fst)) → ∃ sql, s.render d = .ok sql) ∧
    ∀ sql, s.render d = .ok sql → ∃ tuples returning,
      returningText d s.returning = .ok returning ∧
      sql = d.insertText s.modifiers table s.columns tuples ++ returning ∧
      List.Forall₂ (fun row tuple => Follows s.columns row tuple ∧
        (Carries s.columns row tuple ↔
          s.columns.Perm (row.map Prod.fst) ∧ OneValueEach row)) s.rows tuples ∧
      (s.columns.Nodup → List.Forall₂ (Carries s.columns) s.rows tuples) := by
  have hsucceeds := render_succeeds_iff (d := d) htable hcolumns
  refine ⟨hsucceeds, fun hmodifiers hreturning hperm => ?_, fun sql hsql => ?_⟩
  · refine hsucceeds.mpr ⟨hmodifiers, hreturning, fun row hrow => ⟨?_, (hperm row hrow).subset⟩⟩
    simpa using (hperm row hrow).length_eq.symm
  · obtain ⟨-, tuples, htuples, returning, hreturning, rfl⟩ :=
      (render_eq_ok htable hcolumns).mp hsql
    refine ⟨tuples, returning, hreturning, rfl, ?_, fun hnodup => ?_⟩
    · exact htuples.imp fun row tuple h => ⟨h, carries_iff h⟩
    · exact htuples.imp fun row tuple h => carries_of_nodup hnodup h

/-- Two rows with the columns in different orders. -/
def ranked : Insert :=
  ((empty.into "tag").addRow [("id", .integer 1), ("rank", .integer 2)]).addRow
    [("rank", .integer 4), ("id", .integer 3)]

theorem render_carries_ranked :
    ranked.table = some "tag" ∧ ranked.columns ≠ [] ∧ ranked.columns.Nodup ∧
    ranked.render .generic =
      .ok "INSERT INTO \"tag\" (\"id\", \"rank\") VALUES (1, 2), (3, 4)" ∧
    ∃ tuples returning,
      "INSERT INTO \"tag\" (\"id\", \"rank\") VALUES (1, 2), (3, 4)" =
        Dialect.insertText .generic ranked.modifiers "tag" ranked.columns tuples ++ returning ∧
      List.Forall₂ (Carries ranked.columns) ranked.rows tuples := by
  have htable : ranked.table = some "tag" := rfl
  have hcolumns : ranked.columns ≠ [] := by decide
  have hnodup : ranked.columns.Nodup := by decide
  have hsql : ranked.render .generic =
      .ok "INSERT INTO \"tag\" (\"id\", \"rank\") VALUES (1, 2), (3, 4)" := by rfl
  obtain ⟨tuples, returning, -, htext, -, hcarries⟩ :=
    (render_carries_rows htable hcolumns).2.2 _ hsql
  exact ⟨htable, hcolumns, hnodup, hsql, tuples, returning, htext, hcarries hnodup⟩

/-- A row that names a column twice. -/
def doubled : List (String × Value) :=
  [("a", .integer 1), ("a", .integer 2)]

theorem eq_of_carries_doubled {tuple : List Value} (h : Carries ["a", "a"] doubled tuple) :
    tuple = [.integer 1, .integer 2] ∨ tuple = [.integer 2, .integer 1] := by
  obtain ⟨value, other, rfl⟩ := List.length_eq_two.mp h.size
  have hvalues : [value, other].Perm [.integer 1, .integer 2] := h.pairs.map Prod.snd
  have hvalue : value ∈ [.integer 1, .integer 2] := hvalues.subset List.mem_cons_self
  rcases List.mem_pair.mp hvalue with rfl | rfl
  · rw [List.perm_cons, List.perm_singleton] at hvalues
    exact .inl (by rw [List.singleton_inj.mp hvalues])
  · have hswapped := hvalues.trans (.swap _ _ [])
    rw [List.perm_cons, List.perm_singleton] at hswapped
    exact .inr (by rw [List.singleton_inj.mp hswapped])

/-- A column that the first row names twice takes its first value twice.  A second row may then give a
value to another column, which is not written. -/
theorem repeats_first_value :
    ((empty.into "t").addRow doubled).render .generic =
      .ok "INSERT INTO \"t\" (\"a\", \"a\") VALUES (1, 1)" ∧
    (¬ ∃ tuple, Carries ["a", "a"] doubled tuple ∧
      "INSERT INTO \"t\" (\"a\", \"a\") VALUES (1, 1)" =
        Dialect.insertText .generic .none "t" ["a", "a"] [tuple]) ∧
    (((empty.into "t").addRow doubled).addRow
      [("a", .integer 3), ("b", .integer 4)]).render .generic =
      .ok "INSERT INTO \"t\" (\"a\", \"a\") VALUES (1, 1), (3, 3)" := by
  refine ⟨by rfl, ?_, by rfl⟩
  rintro ⟨tuple, hcarries, htext⟩
  rcases eq_of_carries_doubled hcarries with rfl | rfl
  · exact absurd htext (by decide)
  · exact absurd htext (by decide)

end Insert

end RecordMapper
