import RecordMapper.Condition
import RecordMapper.Entity.Collection

/-!
# Reconciling rows and pivots

The pivots of an owner take over its stored rows.  A pivot first claims the row it was read from, if
that row still leads to the same far key; then any row left over that does.  No row is claimed twice,
and what no pivot claims is stale.
-/

namespace RecordMapper

def takeFirst {α : Type} (fits : α → Bool) : List α → Option α × List α
  | [] => (none, [])
  | a :: rest =>
      if fits a then (some a, rest)
      else ((takeFirst fits rest).1, a :: (takeFirst fits rest).2)

/-- What each claimant takes when all take in turn the first item that fits, and what is left. -/
def claimInTurn {α β : Type} (fits : β → α → Bool) : List β → List α → List (Option α) × List α
  | [], items => ([], items)
  | claimant :: rest, items =>
      let taken := takeFirst (fits claimant) items
      let others := claimInTurn fits rest taken.2
      (taken.1 :: others.1, others.2)

namespace Row

def hasKey (row : Row) (column : String) (key : Key) : Bool :=
  (row.get? column).bind Value.key? == some key

end Row

namespace Entity

def sharesFar (farKey : String) (pivot : Entity) (row : Row) : Bool :=
  match pivot.fieldKey? farKey with
  | some far => row.hasKey farKey far
  | none => false

/-- Whether a row is the one a pivot was read from and still leads to its far key. -/
def ownsRow (key : Option String) (farKey : String) (pivot : Entity) (row : Row) : Bool :=
  match key with
  | some key =>
      match (pivot.stored? key).bind Value.key? with
      | some id => row.hasKey key id && pivot.sharesFar farKey row
      | none => false
  | none => false

end Entity

/-- The stored row that each pivot takes over, and the stale rows. -/
def pairRows (key : Option String) (farKey : String) (pivots : List Entity) (stored : List Row) :
    List (Option Row) × List Row :=
  let own := claimInTurn (Entity.ownsRow key farKey) pivots stored
  let shared := claimInTurn
    (fun (pivot, row?) row => row?.isNone && pivot.sharesFar farKey row)
    (pivots.zip own.1) own.2
  (List.zipWith (fun first second => first <|> second) own.1 shared.1, shared.2)

/-- The values of a column in all rows, if each has one with a key. -/
def idsOf? (column : String) (rows : List Row) : Option (List Value) :=
  rows.mapM fun row => (row.get? column).filter fun id => id.key?.isSome

def sameValue (column : String) (value : Value) : Condition :=
  if value.isNull then .isNull (.ofPath column) else .eq (.ofPath column) (.value value)

def sameRow (row : Row) : Condition :=
  .and (row.pairs.map fun (column, value) => sameValue column value)

def rowIdentity (row : Row) : List (String × Option Key) :=
  row.pairs.map fun (column, value) => (column, value.key?)

/-- The condition on stale rows: by their ids if all of them have one, or else by all values. -/
def staleCondition (key : Option String) (rows : List Row) : Condition :=
  match key.bind fun column => (idsOf? column rows).map fun ids => (column, ids) with
  | some (column, ids) => .inList (.ofPath column) ids
  | none => .or ((rows.eraseDupsBy fun a b => rowIdentity a == rowIdentity b).map sameRow)

def missingIds (column : String) (stored : List Row) (present : List (Option Key)) :
    List Value :=
  (stored.filterMap fun row => row.get? column).filter fun id =>
    id.key?.isSome && !present.contains id.key?

end RecordMapper
