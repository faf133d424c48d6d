import RecordMapper.Statement.Select

/-!
# Update statements
-/

namespace RecordMapper

structure Update where
  modifiers : Modifiers
  table : Option String
  assignments : List (String × Condition)
  filter : Condition
  order : List Order
  limit : Option UInt64

namespace Update

def empty : Update :=
  { modifiers := .none, table := none, assignments := [], filter := .always, order := []
    limit := none }

def setTable (s : Update) (table : String) : Update :=
  { s with table := some table }

def modifier (s : Update) (modifier : Modifier) : Update :=
  { s with modifiers := s.modifiers.insert modifier }

def assign (s : Update) (column : String) (expr : Condition) : Update :=
  { s with assignments := s.assignments ++ [(column, expr)] }

def assignValues (s : Update) (row : List (String × Value)) : Update :=
  { s with
    assignments := s.assignments ++ row.map fun (column, value) => (column, .value value) }

def addFilter (s : Update) (condition : Condition) : Update :=
  { s with filter := s.filter.both condition }

def addOrder (s : Update) (order : List Order) : Update :=
  { s with order := s.order ++ order }

def setLimit (s : Update) (limit : UInt64) : Update :=
  { s with limit := positive? limit }

def assignmentText (d : Dialect) (assignment : String × Condition) : Attempt String := do
  let sql ← assignment.2.render d
  return d.quoteIdentifier assignment.1 ++ " " ++ Keyword.eq.text ++ " " ++ sql

def render (d : Dialect) (s : Update) : Attempt String :=
  match s.table with
  | none => .error (.clauseMissing Keyword.update.text Keyword.table.text)
  | some table =>
      if s.assignments.isEmpty then
        .error (.clauseMissing Keyword.update.text Keyword.set.text)
      else do
        let assignmentsSql ← s.assignments.mapM (assignmentText d)
        let modifiersSql ← modifiersText d .update s.modifiers
        let filterSql ← renderClause d .where s.filter
        let orderSql ← renderOrder d s.order
        return Keyword.update.text ++ modifiersSql ++ " " ++ d.quotePath table ++ " " ++
          Keyword.set.text ++ " " ++ ", ".intercalate assignmentsSql ++ filterSql ++ orderSql ++
          limitText s.limit

end Update

end RecordMapper
