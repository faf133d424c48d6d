import RecordMapper.Proofs.Entity.Covering
import RecordMapper.Proofs.Row.Insertions

/-!
# Rows over a history

The columns of a row are stored one behind the other, and each call takes the first one of a name.  Since no
call adds a second column of a name, the first one is the only one: a row acts as a map that remembers the
order in which its columns were added.  `step_onPairs` says what one call does and `get?_after_iff` what a
column holds after any number of them.
-/

namespace RecordMapper

/-! ## Stored pairs -/

section Stored

variable {α : Type}

/-- The position of the first pair of a name. -/
def pairIndex? (name : String) (pairs : List (String × α)) : Option Nat :=
  pairs.findIdx? fun pair => pair.1 == name

/-- Writes into the first pair of a name, or into a new one at the end, and gives back what stood there. -/
def putPair (name : String) (a : α) (pairs : List (String × α)) : Option α × List (String × α) :=
  match pairIndex? name pairs with
  | some i => (pairs[i]?.map Prod.snd, pairs.modify i fun pair => (pair.1, a))
  | none => (none, pairs ++ [(name, a)])

def takePair (name : String) (pairs : List (String × α)) : Option α × List (String × α) :=
  match pairIndex? name pairs with
  | some i => (pairs[i]?.map Prod.snd, pairs.eraseIdx i)
  | none => (none, pairs)

def editPair (name : String) (a : α) (pairs : List (String × α)) : List (String × α) :=
  match pairIndex? name pairs with
  | some i => pairs.modify i fun pair => (pair.1, a)
  | none => pairs

variable {name : String} {a b : α} {pairs before after : List (String × α)}

theorem pairIndex?_of_notMem (h : name ∉ pairs.map Prod.fst) : pairIndex? name pairs = none := by
  rw [pairIndex?, List.findIdx?_eq_none_iff]
  intro pair hpair
  rw [beq_eq_false_iff_ne]
  rintro rfl
  exact h (List.mem_map_of_mem hpair)

theorem pairIndex?_split (h : name ∉ before.map Prod.fst) :
    pairIndex? name (before ++ (name, a) :: after) = some before.length := by
  have hbefore : before.findIdx? (fun pair => pair.1 == name) = none := pairIndex?_of_notMem h
  simp [pairIndex?, List.findIdx?_append, hbefore, List.findIdx?_cons]

theorem exists_split (h : name ∈ pairs.map Prod.fst) :
    ∃ before a after, pairs = before ++ (name, a) :: after ∧ name ∉ before.map Prod.fst := by
  induction pairs with
  | nil => simp at h
  | cons pair rest ih =>
      by_cases hname : pair.1 = name
      · exact ⟨[], pair.2, rest, by simp [← hname], by simp⟩
      · have hrest : name ∈ rest.map Prod.fst := by
          simpa [Ne.symm hname] using h
        obtain ⟨before, a, after, rfl, hnew⟩ := ih hrest
        exact ⟨pair :: before, a, after, rfl, by simpa [Ne.symm hname] using hnew⟩

theorem putPair_split (h : name ∉ before.map Prod.fst) :
    putPair name b (before ++ (name, a) :: after) = (some a, before ++ (name, b) :: after) := by
  simp [putPair, pairIndex?_split h, List.modify_eq_set_getElem?]

theorem takePair_split (h : name ∉ before.map Prod.fst) :
    takePair name (before ++ (name, a) :: after) = (some a, before ++ after) := by
  simp [takePair, pairIndex?_split h, List.eraseIdx_append_of_length_le]

theorem editPair_split (h : name ∉ before.map Prod.fst) :
    editPair name b (before ++ (name, a) :: after) = before ++ (name, b) :: after := by
  simp [editPair, pairIndex?_split h, List.modify_eq_set_getElem?]

theorem insertPair_split (h : name ∉ before.map Prod.fst) :
    insertPair name b (before ++ (name, a) :: after) = before ++ (name, b) :: after := by
  induction before with
  | nil => simp [insertPair]
  | cons pair before ih =>
      rw [List.map_cons, List.mem_cons, not_or] at h
      simp [insertPair, Ne.symm h.1, ih h.2]

theorem lookup_split (h : name ∉ before.map Prod.fst) :
    (before ++ (name, a) :: after).lookup name = some a := by
  rw [List.lookup_append, lookup_eq_none_of_notMem h, lookup_pair_cons, if_pos rfl]
  rfl

theorem putPair_of_notMem (h : name ∉ pairs.map Prod.fst) :
    putPair name b pairs = (none, pairs ++ [(name, b)]) := by
  simp [putPair, pairIndex?_of_notMem h]

theorem takePair_of_notMem (h : name ∉ pairs.map Prod.fst) : takePair name pairs = (none, pairs) := by
  simp [takePair, pairIndex?_of_notMem h]

theorem editPair_of_notMem (h : name ∉ pairs.map Prod.fst) : editPair name b pairs = pairs := by
  simp [editPair, pairIndex?_of_notMem h]

theorem putPair_eq : putPair name b pairs = (pairs.lookup name, insertPair name b pairs) := by
  by_cases hname : name ∈ pairs.map Prod.fst
  · obtain ⟨before, a, after, rfl, hnew⟩ := exists_split hname
    rw [putPair_split hnew, lookup_split hnew, insertPair_split hnew]
  · rw [putPair_of_notMem hname, lookup_eq_none_of_notMem hname, insertPair_of_notMem hname]

theorem editPair_eq :
    editPair name b pairs = if (pairs.lookup name).isSome then insertPair name b pairs else pairs := by
  by_cases hname : name ∈ pairs.map Prod.fst
  · obtain ⟨before, a, after, rfl, hnew⟩ := exists_split hname
    simp [editPair_split hnew, lookup_split hnew, insertPair_split hnew]
  · simp [editPair_of_notMem hname, lookup_eq_none_of_notMem hname]

theorem erasePair_of_notMem (h : name ∉ pairs.map Prod.fst) : erasePair name pairs = pairs := by
  refine List.filter_eq_self.mpr fun pair hpair => ?_
  rw [decide_eq_true_iff]
  rintro rfl
  exact h (List.mem_map_of_mem hpair)

theorem takePair_eq (h : (pairs.map Prod.fst).Nodup) :
    takePair name pairs = (pairs.lookup name, erasePair name pairs) := by
  by_cases hname : name ∈ pairs.map Prod.fst
  · obtain ⟨before, a, after, rfl, hnew⟩ := exists_split hname
    have hlater : name ∉ after.map Prod.fst := by
      simp only [List.map_append, List.map_cons, List.nodup_append, List.nodup_cons] at h
      exact h.2.1.1
    have hsplit : erasePair name (before ++ (name, a) :: after) =
        erasePair name before ++ erasePair name after := by
      simp [erasePair]
    rw [takePair_split hnew, lookup_split hnew, hsplit, erasePair_of_notMem hnew,
      erasePair_of_notMem hlater]
  · rw [takePair_of_notMem hname, lookup_eq_none_of_notMem hname, erasePair_of_notMem hname]

end Stored

namespace Row

/-! ## Calls -/

inductive Call
  | insert (name : String) (value : Value)
  | remove (name : String)
  /-- A value that is assigned to a column in place. -/
  | assign (name : String) (value : Value)
  | collect (added : List (String × Value))

namespace Call

def apply (row : Row) : Call → Row
  | insert name value => row.insert name value
  | remove name => row.erase name
  | assign name value => row.assign name value
  | collect added => .ofPairs added

def onPairs (pairs : List (String × Value)) : Call → Option Value × List (String × Value)
  | insert name value => putPair name value pairs
  | remove name => takePair name pairs
  | assign name value => (none, editPair name value pairs)
  | collect added => (none, added.foldl (fun pairs pair => (putPair pair.1 pair.2 pairs).2) [])

inductive Step : Call → Option Value → List (String × Value) → List (String × Value) → Prop
  | replaces {name : String} {old value : Value} {before after : List (String × Value)} :
      Step (insert name value) (some old) (before ++ (name, old) :: after)
        (before ++ (name, value) :: after)
  | adds {name : String} {value : Value} {pairs : List (String × Value)}
      (hnew : name ∉ pairs.map Prod.fst) :
      Step (insert name value) none pairs (pairs ++ [(name, value)])
  | removes {name : String} {old : Value} {before after : List (String × Value)} :
      Step (remove name) (some old) (before ++ (name, old) :: after) (before ++ after)
  | removesNothing {name : String} {pairs : List (String × Value)}
      (hnew : name ∉ pairs.map Prod.fst) : Step (remove name) none pairs pairs
  | assigns {name : String} {old value : Value} {before after : List (String × Value)} :
      Step (assign name value) none (before ++ (name, old) :: after) (before ++ (name, value) :: after)
  | assignsNothing {name : String} {value : Value} {pairs : List (String × Value)}
      (hnew : name ∉ pairs.map Prod.fst) : Step (assign name value) none pairs pairs
  /-- Of the pairs of one name the last one counts, at the place of the first one. -/
  | collects {added pairs collected : List (String × Value)}
      (hnames : collected.map Prod.fst = firstSeen (added.map Prod.fst))
      (hvalues : ∀ name, collected.lookup name = added.reverse.lookup name) :
      Step (collect added) none pairs collected

theorem foldl_putPair (added : List (String × Value)) :
    added.foldl (fun pairs pair => (putPair pair.1 pair.2 pairs).2) [] = insertPairs [] added := by
  simp only [putPair_eq, insertPairs]

theorem step_onPairs (call : Call) (pairs : List (String × Value)) :
    call.Step (call.onPairs pairs).1 pairs (call.onPairs pairs).2 := by
  cases call with
  | insert name value =>
      by_cases hname : name ∈ pairs.map Prod.fst
      · obtain ⟨before, old, after, rfl, hnew⟩ := exists_split hname
        rw [onPairs, putPair_split hnew]
        exact .replaces
      · rw [onPairs, putPair_of_notMem hname]
        exact .adds hname
  | remove name =>
      by_cases hname : name ∈ pairs.map Prod.fst
      · obtain ⟨before, old, after, rfl, hnew⟩ := exists_split hname
        rw [onPairs, takePair_split hnew]
        exact .removes
      · rw [onPairs, takePair_of_notMem hname]
        exact .removesNothing hname
  | assign name value =>
      by_cases hname : name ∈ pairs.map Prod.fst
      · obtain ⟨before, old, after, rfl, hnew⟩ := exists_split hname
        rw [onPairs, editPair_split hnew]
        exact .assigns
      · rw [onPairs, editPair_of_notMem hname]
        exact .assignsNothing hname
  | collect added =>
      rw [onPairs, foldl_putPair]
      exact .collects (names_insertPairs added) fun name => by simp [lookup_insertPairs]

theorem onPairs_pairs (call : Call) (row : Row) :
    (call.onPairs row.pairs).2 = (call.apply row).pairs := by
  cases call with
  | insert name value => simp [onPairs, apply, putPair_eq, Row.insert]
  | remove name => simp [onPairs, apply, takePair_eq row.distinct, erase]
  | assign name value =>
      rw [onPairs, editPair_eq, apply, Row.assign, get?]
      split <;> rfl
  | collect added =>
      rw [onPairs, foldl_putPair, apply, ofPairs, pairs_insertAll_eq]
      rfl

def Writes (row : Row) (name : String) (value : Value) : Call → Prop
  | insert column written => column = name ∧ written = value
  | remove _ => False
  | assign column written => column = name ∧ written = value ∧ (row.get? name).isSome = true
  | collect added => added.reverse.lookup name = some value

def Touches (name : String) : Call → Prop
  | insert column _ | remove column | assign column _ => column = name
  | collect _ => True

theorem get?_apply {row : Row} {name : String} {value : Value} (call : Call) :
    (call.apply row).get? name = some value ↔
      call.Writes row name value ∨ (¬ call.Touches name ∧ row.get? name = some value) := by
  cases call with
  | insert column _ | remove column =>
      by_cases hcolumn : column = name
      · simp [apply, Writes, Touches, hcolumn]
      · simp [apply, Writes, Touches, hcolumn, Ne.symm hcolumn]
  | assign column written =>
      rw [apply, Row.assign]
      by_cases hcolumn : column = name
      · subst hcolumn
        cases hvalue : row.get? column <;> simp [Writes, Touches, hvalue]
      · split <;> simp [Writes, Touches, hcolumn, Ne.symm hcolumn]
  | collect added =>
      rw [apply, ofPairs, get?, pairs_insertAll_eq, lookup_insertPairs]
      simp [Writes, Touches, empty]

theorem get?_apply_of_not_touches {name : String} {call : Call} (h : ¬ call.Touches name) (row : Row) :
    (call.apply row).get? name = row.get? name := by
  have hwrites : ∀ value, ¬ call.Writes row name value := by
    intro value
    cases call with
    | insert _ _ | assign _ _ => exact fun hwrites => h hwrites.1
    | remove _ => exact id
    | collect _ => exact absurd trivial h
  refine Option.ext fun value => ?_
  simp [get?_apply, hwrites, h]

end Call

/-! ## Histories -/

def ofCalls (calls : List Call) : Row :=
  calls.foldl Call.apply .empty

def storedBy (calls : List Call) : List (String × Value) :=
  calls.foldl (fun pairs call => (call.onPairs pairs).2) []

/-- A value was written into a column, and the column was neither written nor removed since. -/
def LastWrote (calls : List Call) (name : String) (value : Value) : Prop :=
  ∃ before call later, calls = before ++ call :: later ∧
    call.Writes (ofCalls before) name value ∧ ∀ other ∈ later, ¬ other.Touches name

variable {calls : List Call} {name : String} {value : Value}

theorem ofCalls_append_singleton (call : Call) :
    ofCalls (calls ++ [call]) = call.apply (ofCalls calls) := by
  simp [ofCalls]

theorem storedBy_append_singleton (call : Call) :
    storedBy (calls ++ [call]) = (call.onPairs (storedBy calls)).2 := by
  simp [storedBy]

theorem storedBy_eq (calls : List Call) : storedBy calls = (ofCalls calls).pairs := by
  induction calls using List.reverseRecOn with
  | nil => rfl
  | append_singleton calls call ih =>
      rw [storedBy_append_singleton, ofCalls_append_singleton, ih, Call.onPairs_pairs]

/-- The last value is that of the last call, or it was before and the last call does not touch it. -/
theorem lastWrote_append_singleton (call : Call) :
    LastWrote (calls ++ [call]) name value ↔
      call.Writes (ofCalls calls) name value ∨ (¬ call.Touches name ∧ LastWrote calls name value) := by
  constructor
  · rintro ⟨before, written, later, hcalls, hwrites, hlater⟩
    rcases List.eq_nil_or_concat later with rfl | ⟨later, last, rfl⟩
    · obtain ⟨rfl, hlast⟩ := List.append_inj' hcalls rfl
      cases hlast
      exact .inl hwrites
    · rw [List.concat_eq_append] at hcalls hlater
      have hsplit : calls ++ [call] = (before ++ written :: later) ++ [last] := by
        simpa using hcalls
      obtain ⟨rfl, hlast⟩ := List.append_inj' hsplit rfl
      cases hlast
      simp only [List.mem_append, List.mem_singleton, or_imp, forall_and, forall_eq] at hlater
      exact .inr ⟨hlater.2, before, written, later, rfl, hwrites, hlater.1⟩
  · rintro (hwrites | ⟨htouches, before, written, later, rfl, hwrites, hlater⟩)
    · exact ⟨calls, call, [], rfl, hwrites, List.forall_mem_nil _⟩
    · refine ⟨before, written, later ++ [call], by simp, hwrites, fun other hother => ?_⟩
      rcases List.mem_append.mp hother with hother | hother
      · exact hlater other hother
      · rwa [List.mem_singleton.mp hother]

/-- A column holds the value that was last written into it. -/
theorem get?_ofCalls_iff (calls : List Call) :
    (ofCalls calls).get? name = some value ↔ LastWrote calls name value := by
  induction calls using List.reverseRecOn with
  | nil =>
      refine iff_of_false nofun ?_
      rintro ⟨before, call, later, hcalls, -⟩
      simp at hcalls
  | append_singleton calls call ih =>
      rw [ofCalls_append_singleton, Call.get?_apply, lastWrote_append_singleton, ih]

/-- The columns that calls have stored are a map in the order of insertion. -/
structure ActsAsMap (calls : List Call) : Prop where
  distinct : ((storedBy calls).map Prod.fst).Nodup
  pairs : (ofCalls calls).pairs = storedBy calls
  get? : ∀ name value, (ofCalls calls).get? name = some value ↔ LastWrote calls name value
  insert_gives : ∀ name value,
    ((Call.insert name value).onPairs (storedBy calls)).1 = (ofCalls calls).get? name
  remove_gives : ∀ name, ((Call.remove name).onPairs (storedBy calls)).1 = (ofCalls calls).get? name
  step : ∀ call : Call, call.Step (call.onPairs (storedBy calls)).1 (storedBy calls)
    (storedBy (calls ++ [call]))
  others : ∀ (call : Call) name, ¬ call.Touches name →
    (ofCalls (calls ++ [call])).get? name = (ofCalls calls).get? name

theorem actsAsMap (calls : List Call) : ActsAsMap calls where
  distinct := by
    rw [storedBy_eq]
    exact (ofCalls calls).distinct
  pairs := (storedBy_eq calls).symm
  get? _ _ := get?_ofCalls_iff calls
  insert_gives name value := by simp [Call.onPairs, putPair_eq, storedBy_eq, get?]
  remove_gives name := by
    rw [storedBy_eq, Call.onPairs, takePair_eq (ofCalls calls).distinct, get?]
  step call := by
    rw [storedBy_append_singleton]
    exact call.step_onPairs _
  others call name h := by
    rw [ofCalls_append_singleton, Call.get?_apply_of_not_touches h]

/-- After any calls a row is a map in the order of insertion.  Of an entity that adopts a row, the key is that
of the row; each other field has the value in memory or, without one, the value of the row. -/
theorem row_acts_as_map :
    (∀ calls, ActsAsMap calls) ∧
      ∀ (entity : Entity) (row : Row) (key : Option String) (field : String),
        (entity.adopt row key).get? field =
          if some field = key then row.get? field else (entity.get? field).or (row.get? field) :=
  ⟨actsAsMap, Entity.get?_adopt⟩

end Row

end RecordMapper
