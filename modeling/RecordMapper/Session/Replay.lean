import RecordMapper.Session.Database

/-!
# Replayed answers

A connection that gives prepared answers.  Selections take one reply after the other, inserts one id
after the other, and single statements can be made to fail.
-/

namespace RecordMapper

/-- Prepared answers. -/
structure Replay where
  /-- The answers to selections: rows, or the report of a failure. -/
  replies : List (Except String (List Row))
  /-- The keys that inserts give to their rows. -/
  ids : List Value
  /-- Statements that fail, by their number from zero, with the report. -/
  fails : List (Nat × String)

namespace Replay

structure State where
  count : Nat
  replies : List (Except String (List Row))
  ids : List Value
  lastId : Option Value

def start (r : Replay) : State :=
  { count := 0, replies := r.replies, ids := r.ids, lastId := none }

def step (r : Replay) (state : State) (sql : String) : Except String (List Row) × State :=
  let next := { state with count := state.count + 1 }
  match r.fails.lookup state.count with
  | some message => (.error message, next)
  | none =>
      if sql.startsWith "SELECT" then
        (state.replies.headD (.ok []), { next with replies := state.replies.tail })
      else if sql.startsWith "INSERT" then
        (.ok [], { next with ids := state.ids.tail, lastId := state.ids.head? })
      else (.ok [], next)

def after (r : Replay) (log : Log) : State :=
  log.foldl (fun state sql => (r.step state sql).2) r.start

/-- The connection that gives the prepared answers. -/
def connection (r : Replay) (platform : Platform) : Connection :=
  { platform
    answer := fun log sql => (r.step (r.after log) sql).1
    lastInsertId? := fun log => (r.after log).lastId }

end Replay

end RecordMapper
