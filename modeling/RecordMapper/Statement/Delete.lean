import RecordMapper.Statement.Select

/-!
# Delete statements
-/

namespace RecordMapper

structure Delete where
  modifiers : Modifiers
  table : Option String
  filter : Condition
  order : List Order
  limit : Option UInt64

namespace Delete

def empty : Delete :=
  { modifiers := .none, table := none, filter := .always, order := [], limit := none }

def fromTable (s : Delete) (table : String) : Delete :=
  { s with table := some table }

def modifier (s : Delete) (modifier : Modifier) : Delete :=
  { s with modifiers := s.modifiers.insert modifier }

def addFilter (s : Delete) (condition : Condition) : Delete :=
  { s with filter := s.filter.both condition }

def addOrder (s : Delete) (order : List Order) : Delete :=
  { s with order := s.order ++ order }

def setLimit (s : Delete) (limit : UInt64) : Delete :=
  { s with limit := positive? limit }

def render (d : Dialect) (s : Delete) : Attempt String :=
  match s.table with
  | none => .error (.clauseMissing Keyword.delete.text Keyword.from.text)
  | some table => do
      let modifiersSql ← modifiersText d .delete s.modifiers
      let filterSql ← renderClause d .where s.filter
      let orderSql ← renderOrder d s.order
      return Keyword.delete.text ++ modifiersSql ++ " " ++ Keyword.from.text ++ " " ++
        d.quotePath table ++ filterSql ++ orderSql ++ limitText s.limit

end Delete

end RecordMapper
