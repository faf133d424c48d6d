import Mathlib.Data.List.Induction
import RecordMapper.Proofs.Attempt
import RecordMapper.Proofs.Statement.Paging
import RecordMapper.Session.Query

/-!
# Calls that build a query

A query is built by a list of calls.  `leftBy_built` says what they leave in its selection: the table
of the schema, and the conditions, groups and conditions on groups of all calls, in their order.
-/

namespace RecordMapper

namespace Query

inductive Call
  | columns (columns : List Column)
  | filter (condition : Condition)
  | jsonFilter (input : Json)
  | order (order : List Order)
  | group (columns : List Column)
  | having (condition : Condition)
  | limit (n : UInt64)
  | offset (n : UInt64)
  | page (n : UInt64)
  | embed (paths : List String)

namespace Call

def apply (q : Query) : Call → Attempt Query
  | columns added => .ok (q.addColumns added)
  | filter condition => .ok (q.addFilter condition)
  | jsonFilter input => q.addJsonFilter input
  | order added => .ok (q.addOrder added)
  | group added => .ok (q.addGroup added)
  | having condition => .ok (q.addHaving condition)
  | limit n => .ok (q.setLimit n)
  | offset n => .ok (q.setOffset n)
  | page n => .ok (q.setPage n)
  | embed paths => .ok (q.embed paths)

/-- Whether the call decides which rows there are, or how they are grouped. -/
def isCounted : Call → Bool
  | filter _ | jsonFilter _ | group _ | having _ => true
  | _ => false

/-! ## What a call adds -/

def conditions : Call → List Condition
  | filter condition => [condition]
  | jsonFilter input => (Condition.ofJson input).toOption.toList
  | _ => []

def groups : Call → List Column
  | group added => added
  | _ => []

def havings : Call → List Condition
  | having condition => [condition]
  | _ => []

end Call

/-- The query of a schema after all calls; a call that fails ends it. -/
def built (schema : Schema) (calls : List Call) : Attempt Query :=
  calls.foldlM Call.apply (ofSchema schema)

/-! ## What calls leave -/

def outline (q : Query) : Select :=
  { q.select with
    columns := []
    filter := .always
    group := []
    having := .always
    order := []
    limit := none
    offset := none }

/-- The change from a query to the next: what a call adds to the clauses that are counted. -/
structure Adds (call : Call) (q q' : Query) : Prop where
  outline : q'.outline = q.outline
  filter : q'.select.filter = call.conditions.foldl Condition.both q.select.filter
  group : q'.select.group = q.select.group ++ call.groups
  having : q'.select.having = call.havings.foldl Condition.both q.select.having
  limit : q.select.limit ≠ some 0 → q'.select.limit ≠ some 0
  offset : q.select.offset ≠ some 0 → q'.select.offset ≠ some 0

theorem positive?_ne_zero (n : UInt64) : positive? n ≠ some 0 := by
  unfold positive?
  split
  next => nofun
  next hn => exact fun h => hn (Option.some.inj h)

variable {schema : Schema} {calls : List Call} {q q' : Query}

theorem adds_apply {call : Call} (h : call.apply q = .ok q') : Adds call q q' := by
  cases call with
  | columns _ | filter _ | order _ | having _ | embed _ =>
      cases h
      exact ⟨rfl, rfl, (List.append_nil _).symm, rfl, id, id⟩
  | jsonFilter input =>
      obtain ⟨condition, hcondition, h⟩ := attempt_bind_eq_ok.mp h
      cases h
      refine ⟨rfl, ?_, (List.append_nil _).symm, rfl, id, id⟩
      rw [Call.conditions, hcondition]
      rfl
  | group added =>
      cases h
      exact ⟨rfl, rfl, rfl, rfl, id, id⟩
  | limit n =>
      cases h
      exact ⟨rfl, rfl, (List.append_nil _).symm, rfl, fun _ => positive?_ne_zero n, id⟩
  | offset _ | page _ =>
      cases h
      exact ⟨rfl, rfl, (List.append_nil _).symm, rfl, id, fun _ => positive?_ne_zero _⟩

structure LeftBy (schema : Schema) (calls : List Call) (q : Query) : Prop where
  outline : q.outline = schema.select
  filter : q.select.filter = (calls.flatMap Call.conditions).foldl Condition.both .always
  group : q.select.group = calls.flatMap Call.groups
  having : q.select.having = (calls.flatMap Call.havings).foldl Condition.both .always
  limit : q.select.limit ≠ some 0
  offset : q.select.offset ≠ some 0

theorem leftBy_ofSchema (schema : Schema) : LeftBy schema [] (ofSchema schema) :=
  ⟨rfl, rfl, rfl, rfl, nofun, nofun⟩

theorem leftBy_concat {call : Call} (h : LeftBy schema calls q) (hcall : Adds call q q') :
    LeftBy schema (calls ++ [call]) q' where
  outline := hcall.outline.trans h.outline
  filter := by
    rw [List.flatMap_append, List.foldl_append, List.flatMap_singleton, ← h.filter, hcall.filter]
  group := by rw [List.flatMap_append, List.flatMap_singleton, ← h.group, hcall.group]
  having := by
    rw [List.flatMap_append, List.foldl_append, List.flatMap_singleton, ← h.having, hcall.having]
  limit := hcall.limit h.limit
  offset := hcall.offset h.offset

theorem leftBy_built (h : built schema calls = .ok q) : LeftBy schema calls q := by
  induction calls using List.reverseRecOn generalizing q with
  | nil =>
      cases h
      exact leftBy_ofSchema schema
  | append_singleton calls call ih =>
      rw [built, List.foldlM_append] at h
      obtain ⟨before, hbefore, h⟩ := attempt_bind_eq_ok.mp h
      rw [List.foldlM_cons] at h
      obtain ⟨after, hafter, h⟩ := attempt_bind_eq_ok.mp h
      cases h
      exact leftBy_concat (ih hbefore) (adds_apply hafter)

end Query

end RecordMapper
