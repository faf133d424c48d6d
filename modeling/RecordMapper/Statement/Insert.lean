import RecordMapper.Statement.Rendering

/-!
# Insert statements

The first row fixes the columns.  Every other row gives a value to each of them, in any order.
-/

namespace RecordMapper

structure Insert where
  modifiers : Modifiers
  table : Option String
  rows : List (List (String × Value))
  returning : List Column

namespace Insert

def empty : Insert :=
  { modifiers := .none, table := none, rows := [], returning := [] }

def into (s : Insert) (table : String) : Insert :=
  { s with table := some table }

def modifier (s : Insert) (modifier : Modifier) : Insert :=
  { s with modifiers := s.modifiers.insert modifier }

def addRow (s : Insert) (row : List (String × Value)) : Insert :=
  { s with rows := s.rows ++ [row] }

def addReturning (s : Insert) (columns : List Column) : Insert :=
  { s with returning := s.returning ++ columns }

def rowValues (row : List (String × Value)) : List String → Attempt (List Value)
  | [] => .ok []
  | column :: rest =>
      match row.lookup column with
      | some value => do return value :: (← rowValues row rest)
      | none => .error (.rowLacksColumn column)

def rowText (d : Dialect) (columns : List String) (row : List (String × Value)) :
    Attempt String :=
  if row.length = columns.length then do
    let values ← rowValues row columns
    return parenthesize (", ".intercalate (values.map d.literal))
  else .error .rowsDiffer

/-- The columns and rows of an insert, or the words for a row of defaults alone. -/
def rowsText (d : Dialect) (first : List (String × Value)) (rows : List (List (String × Value))) :
    Attempt String :=
  if first.isEmpty then
    if 1 < rows.length then .error .defaultRows
    else .ok Keyword.defaultValues.text
  else do
    let columns := first.map Prod.fst
    let tuples ← rows.mapM (rowText d columns)
    return parenthesize (", ".intercalate (columns.map d.quoteIdentifier)) ++ " " ++
      Keyword.values.text ++ " " ++ ", ".intercalate tuples

def returningText (d : Dialect) (columns : List Column) : Attempt String :=
  if columns.isEmpty then .ok ""
  else if d.supportsReturning then do
    return " " ++ Keyword.returning.text ++ " " ++ (← renderColumns d true columns)
  else .error (.returningUnsupported d)

def render (d : Dialect) (s : Insert) : Attempt String :=
  match s.table, s.rows with
  | none, _ => .error (.clauseMissing Keyword.insert.text Keyword.into.text)
  | some _, [] => .error (.clauseMissing Keyword.insert.text Keyword.values.text)
  | some table, first :: more => do
      let modifiersSql ← modifiersText d .insert s.modifiers
      let rowsSql ← rowsText d first (first :: more)
      let returningSql ← returningText d s.returning
      return Keyword.insert.text ++ modifiersSql ++ " " ++ Keyword.into.text ++ " " ++
        d.quotePath table ++ " " ++ rowsSql ++ returningSql

end Insert

end RecordMapper
