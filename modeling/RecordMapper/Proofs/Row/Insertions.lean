import RecordMapper.Proofs.Rows
import RecordMapper.Proofs.Statement.ColumnLists

/-!
# Pairs that are inserted in turn

Of the pairs that are inserted under one name the last one stays, at the place of the first one.
-/

namespace RecordMapper

variable {α : Type}

def insertPairs (pairs added : List (String × α)) : List (String × α) :=
  added.foldl (fun pairs pair => insertPair pair.1 pair.2 pairs) pairs

theorem insertPairs_append_singleton (pairs added : List (String × α)) (last : String × α) :
    insertPairs pairs (added ++ [last]) = insertPair last.1 last.2 (insertPairs pairs added) := by
  simp [insertPairs]

theorem lookup_insertPairs (pairs added : List (String × α)) (name : String) :
    (insertPairs pairs added).lookup name = (added.reverse.lookup name).or (pairs.lookup name) := by
  induction added using List.reverseRecOn with
  | nil => simp [insertPairs]
  | append_singleton added last ih =>
      rw [insertPairs_append_singleton, lookup_insertPair, ih, List.reverse_append,
        List.reverse_singleton, List.singleton_append, lookup_pair_cons]
      split <;> simp

theorem mem_firstSeen {items : List α} [DecidableEq α] {item : α} :
    item ∈ firstSeen items ↔ item ∈ items := by
  rw [← eraseDups_eq_firstSeen, List.mem_eraseDups]

theorem names_insertPairs (added : List (String × α)) :
    (insertPairs [] added).map Prod.fst = firstSeen (added.map Prod.fst) := by
  induction added using List.reverseRecOn with
  | nil => simp [insertPairs]
  | append_singleton added last ih =>
      rw [insertPairs_append_singleton, names_insertPair, ih, List.map_append, List.map_singleton,
        firstSeen_concat]
      simp only [mem_firstSeen]

theorem Row.pairs_insertAll_eq (row : Row) (added : List (String × Value)) :
    (row.insertAll added).pairs = insertPairs row.pairs added := by
  induction added using List.reverseRecOn with
  | nil => rfl
  | append_singleton added last ih =>
      rw [insertPairs_append_singleton, ← ih]
      simp [insertAll, insert]

end RecordMapper
