import RecordMapper.Value

/-!
# Rows

A row holds the values of its columns in the order in which the columns were added.  Column names
are distinct; `get?_insert` and `get?_erase` say what the two changes do.
-/

namespace RecordMapper

/-- The pairs with the value of a name replaced in place, or with a new pair at the end. -/
def insertPair {α : Type} (name : String) (a : α) : List (String × α) → List (String × α)
  | [] => [(name, a)]
  | pair :: rest => if pair.1 = name then (name, a) :: rest else pair :: insertPair name a rest

def erasePair {α : Type} (name : String) (pairs : List (String × α)) : List (String × α) :=
  pairs.filter fun pair => pair.1 ≠ name

theorem lookup_pair_cons {α : Type} (name : String) (pair : String × α)
    (rest : List (String × α)) :
    (pair :: rest).lookup name = if name = pair.1 then some pair.2 else rest.lookup name := by
  obtain ⟨key, value⟩ := pair
  rw [List.lookup_cons]
  by_cases h : name = key
  · simp [h]
  · simp [h, beq_eq_false_iff_ne.mpr h]

theorem lookup_insertPair {α : Type} (name other : String) (a : α) (pairs : List (String × α)) :
    (insertPair name a pairs).lookup other =
      if other = name then some a else pairs.lookup other := by
  induction pairs with
  | nil => simp [insertPair, lookup_pair_cons]
  | cons pair rest ih =>
      by_cases hp : pair.1 = name
      · simp only [insertPair, hp, if_true, lookup_pair_cons]
        split <;> rfl
      · simp only [insertPair, hp, if_false, lookup_pair_cons, ih]
        by_cases ho : other = pair.1
        · simp [ho, hp]
        · simp [ho]

theorem lookup_erasePair {α : Type} (name other : String) (pairs : List (String × α)) :
    (erasePair name pairs).lookup other =
      if other = name then none else pairs.lookup other := by
  induction pairs with
  | nil => simp [erasePair]
  | cons pair rest ih =>
      unfold erasePair at ih ⊢
      by_cases hp : pair.1 = name
      · rw [List.filter_cons_of_neg (by simp [hp]), ih, lookup_pair_cons, hp]
        split <;> rfl
      · rw [List.filter_cons_of_pos (by simp [hp]), lookup_pair_cons, lookup_pair_cons, ih]
        by_cases ho : other = pair.1
        · simp [ho, hp]
        · simp [ho]

theorem names_insertPair {α : Type} (name : String) (a : α) (pairs : List (String × α)) :
    (insertPair name a pairs).map Prod.fst =
      if name ∈ pairs.map Prod.fst then pairs.map Prod.fst
      else pairs.map Prod.fst ++ [name] := by
  induction pairs with
  | nil => simp [insertPair]
  | cons pair rest ih =>
      by_cases hp : pair.1 = name
      · simp [insertPair, hp]
      · have hne : ¬ name = pair.1 := fun h => hp h.symm
        by_cases hm : name ∈ rest.map Prod.fst
        · simp only [insertPair, hp, if_false, List.map_cons, ih, hm, if_true, List.mem_cons,
            or_true]
        · simp only [insertPair, hp, if_false, List.map_cons, ih, hm, List.mem_cons, hne,
            or_self, List.cons_append]

theorem names_erasePair {α : Type} (name : String) (pairs : List (String × α)) :
    (erasePair name pairs).map Prod.fst = (pairs.map Prod.fst).filter (· ≠ name) := by
  unfold erasePair
  rw [List.filter_map]
  rfl

theorem nodup_insertPair {α : Type} {name : String} {a : α} {pairs : List (String × α)}
    (h : (pairs.map Prod.fst).Nodup) : ((insertPair name a pairs).map Prod.fst).Nodup := by
  rw [names_insertPair]
  split
  · exact h
  next hm =>
    rw [List.nodup_append]
    refine ⟨h, by simp, fun x hx y hy hxy => ?_⟩
    rw [List.mem_singleton] at hy
    exact hm (hy ▸ hxy ▸ hx)

theorem nodup_erasePair {α : Type} {name : String} {pairs : List (String × α)}
    (h : (pairs.map Prod.fst).Nodup) : ((erasePair name pairs).map Prod.fst).Nodup := by
  rw [names_erasePair]
  exact h.filter _

structure Row where
  pairs : List (String × Value)
  distinct : (pairs.map Prod.fst).Nodup

namespace Row

theorem ext {row other : Row} (h : row.pairs = other.pairs) : row = other := by
  cases row
  cases other
  cases h
  rfl

def empty : Row :=
  ⟨[], List.nodup_nil⟩

instance : Inhabited Row := ⟨empty⟩

def get? (row : Row) (name : String) : Option Value :=
  row.pairs.lookup name

/-- Gives a column a value.  A new column goes to the end. -/
def insert (row : Row) (name : String) (value : Value) : Row :=
  ⟨insertPair name value row.pairs, nodup_insertPair row.distinct⟩

def erase (row : Row) (name : String) : Row :=
  ⟨erasePair name row.pairs, nodup_erasePair row.distinct⟩

def assign (row : Row) (name : String) (value : Value) : Row :=
  if (row.get? name).isSome then row.insert name value else row

def contains (row : Row) (name : String) : Bool :=
  (row.get? name).isSome

def names (row : Row) : List String :=
  row.pairs.map Prod.fst

def size (row : Row) : Nat :=
  row.pairs.length

def insertAll (row : Row) (pairs : List (String × Value)) : Row :=
  pairs.foldl (fun row pair => row.insert pair.1 pair.2) row

/-- A row of pairs; a repeated name keeps its first place and its last value. -/
def ofPairs (pairs : List (String × Value)) : Row :=
  empty.insertAll pairs

@[simp] theorem get?_insert (row : Row) (name other : String) (value : Value) :
    (row.insert name value).get? other =
      if other = name then some value else row.get? other :=
  lookup_insertPair name other value row.pairs

@[simp] theorem get?_erase (row : Row) (name other : String) :
    (row.erase name).get? other = if other = name then none else row.get? other :=
  lookup_erasePair name other row.pairs

end Row

end RecordMapper
