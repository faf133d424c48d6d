import RecordMapper.Row

/-!
# Columns of rows

The columns of a row are distinct, so that `get?` finds every pair, and of pairs that are inserted
it finds the new one.
-/

namespace RecordMapper

theorem lookup_eq_some_iff_mem {α : Type} {name : String} {a : α} {pairs : List (String × α)}
    (h : (pairs.map Prod.fst).Nodup) : pairs.lookup name = some a ↔ (name, a) ∈ pairs := by
  induction pairs with
  | nil => simp
  | cons pair rest ih =>
      obtain ⟨hnew, hrest⟩ := List.nodup_cons.mp h
      rw [lookup_pair_cons, List.mem_cons]
      by_cases hname : name = pair.1
      · rw [if_pos hname]
        constructor
        · intro hvalue
          exact .inl (Prod.ext hname (Option.some.inj hvalue).symm)
        · rintro (rfl | hmem)
          · rfl
          · have hagain := List.mem_map_of_mem (f := Prod.fst) hmem
            exact absurd (hname ▸ hagain) hnew
      · rw [if_neg hname, ih hrest]
        constructor
        · exact .inr
        · rintro (rfl | hmem)
          · exact absurd rfl hname
          · exact hmem

theorem lookup_eq_none_of_notMem {α : Type} {name : String} {pairs : List (String × α)}
    (h : name ∉ pairs.map Prod.fst) : pairs.lookup name = none := by
  induction pairs with
  | nil => rfl
  | cons pair rest ih =>
      rw [List.map_cons, List.mem_cons, not_or] at h
      rw [lookup_pair_cons, if_neg h.1]
      exact ih h.2

theorem insertPair_insertPair {α : Type} (name : String) (a b : α) (pairs : List (String × α)) :
    insertPair name b (insertPair name a pairs) = insertPair name b pairs := by
  induction pairs with
  | nil => simp [insertPair]
  | cons pair rest ih =>
      by_cases hpair : pair.1 = name
      · simp [insertPair, hpair]
      · simp [insertPair, hpair, ih]

theorem insertPair_of_notMem {α : Type} {name : String} {pairs : List (String × α)}
    (h : name ∉ pairs.map Prod.fst) (a : α) :
    insertPair name a pairs = pairs ++ [(name, a)] := by
  induction pairs with
  | nil => rfl
  | cons pair rest ih =>
      rw [List.map_cons, List.mem_cons, not_or] at h
      rw [insertPair, if_neg (Ne.symm h.1), ih h.2]
      rfl

theorem erasePair_insertPair {α : Type} (name : String) (a : α) (pairs : List (String × α)) :
    erasePair name (insertPair name a pairs) = erasePair name pairs := by
  unfold erasePair
  induction pairs with
  | nil => simp [insertPair]
  | cons pair rest ih =>
      by_cases hpair : pair.1 = name
      · rw [insertPair, if_pos hpair, List.filter_cons_of_neg (by simp),
          List.filter_cons_of_neg (by simp [hpair])]
      · rw [insertPair, if_neg hpair, List.filter_cons_of_pos (by simp [hpair]),
          List.filter_cons_of_pos (by simp [hpair]), ih]

theorem insertPair_of_lookup {α : Type} {name : String} {a : α} {pairs : List (String × α)}
    (h : pairs.lookup name = some a) : insertPair name a pairs = pairs := by
  induction pairs with
  | nil => cases h
  | cons pair rest ih =>
      rw [lookup_pair_cons] at h
      by_cases hname : name = pair.1
      · rw [if_pos hname] at h
        cases h
        rw [insertPair, if_pos hname.symm, hname]
      · rw [if_neg hname] at h
        rw [insertPair, if_neg (Ne.symm hname), ih h]

namespace Row

theorem get?_eq_some_iff {row : Row} {column : String} {value : Value} :
    row.get? column = some value ↔ (column, value) ∈ row.pairs :=
  lookup_eq_some_iff_mem row.distinct

theorem get?_insertAll {pairs : List (String × Value)} (h : (pairs.map Prod.fst).Nodup) (row : Row)
    (column : String) :
    (row.insertAll pairs).get? column = (pairs.lookup column).or (row.get? column) := by
  induction pairs generalizing row with
  | nil => rfl
  | cons pair rest ih =>
      obtain ⟨hnew, hrest⟩ := List.nodup_cons.mp h
      have hinsert : (row.insertAll (pair :: rest)).get? column =
          (rest.lookup column).or ((row.insert pair.1 pair.2).get? column) := ih hrest _
      rw [hinsert, lookup_pair_cons, get?_insert]
      by_cases hcolumn : column = pair.1
      · rw [if_pos hcolumn, if_pos hcolumn, hcolumn, lookup_eq_none_of_notMem hnew]
        rfl
      · rw [if_neg hcolumn, if_neg hcolumn]

theorem get?_ofPairs {pairs : List (String × Value)} (h : (pairs.map Prod.fst).Nodup)
    (column : String) : (ofPairs pairs).get? column = pairs.lookup column := by
  rw [ofPairs, get?_insertAll h]
  exact Option.or_none

theorem pairs_insertAll {pairs : List (String × Value)} {row : Row}
    (h : ((row.pairs ++ pairs).map Prod.fst).Nodup) :
    (row.insertAll pairs).pairs = row.pairs ++ pairs := by
  induction pairs generalizing row with
  | nil => exact (List.append_nil _).symm
  | cons pair rest ih =>
      have hnew : pair.1 ∉ row.pairs.map Prod.fst := by
        rw [List.map_append, List.map_cons, List.nodup_append] at h
        exact fun hmem => h.2.2 _ hmem _ List.mem_cons_self rfl
      have hinsert : (row.insert pair.1 pair.2).pairs = row.pairs ++ [pair] :=
        insertPair_of_notMem hnew pair.2
      have hrest : (row.insertAll (pair :: rest)).pairs =
          (row.insert pair.1 pair.2).pairs ++ rest := by
        refine ih ?_
        rwa [hinsert, List.append_assoc]
      rw [hrest, hinsert, List.append_assoc]
      rfl

theorem pairs_ofPairs {pairs : List (String × Value)} (h : (pairs.map Prod.fst).Nodup) :
    (ofPairs pairs).pairs = pairs := by
  have hinsert : (empty.insertAll pairs).pairs = empty.pairs ++ pairs := pairs_insertAll h
  exact hinsert

end Row

end RecordMapper
