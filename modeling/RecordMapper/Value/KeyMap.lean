import RecordMapper.Value.Key

/-!
# Maps from keys

What is found by key while records are matched in memory: groups of items, and counts.  `get?_insert`
and `get?_erase` say what the two changes do.
-/

namespace RecordMapper

/-- Entries by key; of two entries with one key the first counts. -/
structure KeyMap (α : Type) where
  entries : List (Key × α)

namespace KeyMap

variable {α : Type}

def empty : KeyMap α :=
  ⟨[]⟩

def get? (map : KeyMap α) (key : Key) : Option α :=
  map.entries.lookup key

def insert (map : KeyMap α) (key : Key) (a : α) : KeyMap α :=
  ⟨(key, a) :: map.entries⟩

def erase (map : KeyMap α) (key : Key) : KeyMap α :=
  ⟨map.entries.filter fun entry => entry.1 ≠ key⟩

@[simp] theorem get?_empty (key : Key) : (empty : KeyMap α).get? key = none :=
  rfl

@[simp] theorem get?_insert (map : KeyMap α) (key other : Key) (a : α) :
    (map.insert key a).get? other = if other = key then some a else map.get? other := by
  rw [get?, insert, List.lookup_cons]
  by_cases h : other = key
  · simp [h]
  · simp [h, beq_eq_false_iff_ne.mpr h, get?]

@[simp] theorem get?_erase (map : KeyMap α) (key other : Key) :
    (map.erase key).get? other = if other = key then none else map.get? other := by
  obtain ⟨entries⟩ := map
  simp only [get?, erase]
  induction entries with
  | nil => simp
  | cons entry rest ih =>
      obtain ⟨found, a⟩ := entry
      by_cases hfound : found = key
      · rw [List.filter_cons_of_neg (by simp [hfound]), ih, List.lookup_cons]
        by_cases hother : other = key
        · simp [hother]
        · simp [hother, hfound, beq_eq_false_iff_ne.mpr hother]
      · rw [List.filter_cons_of_pos (by simp [hfound]), List.lookup_cons, List.lookup_cons, ih]
        by_cases hother : other = found
        · simp [hother, hfound]
        · simp [beq_eq_false_iff_ne.mpr hother]

/-! ## Groups -/

def groupOf (groups : KeyMap (List α)) (key : Key) : List α :=
  (groups.get? key).getD []

def push (groups : KeyMap (List α)) (key : Key) (a : α) : KeyMap (List α) :=
  groups.insert key (groups.groupOf key ++ [a])

def group (items : List (Key × α)) : KeyMap (List α) :=
  items.foldl (fun groups item => groups.push item.1 item.2) empty

/-! ## Counts -/

def countOf (counts : KeyMap Nat) (key : Key) : Nat :=
  (counts.get? key).getD 0

def count (keys : List Key) : KeyMap Nat :=
  keys.foldl (fun counts key => counts.insert key (counts.countOf key + 1)) empty

end KeyMap

end RecordMapper
