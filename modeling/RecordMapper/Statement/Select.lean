import RecordMapper.Statement.Rendering
import RecordMapper.Text.Blank

/-!
# Building selections

A selection grows clause by clause.  Lists and conditions accumulate; switches and limits are
replaced.
-/

namespace RecordMapper

namespace Source

def named (name : String) : Source :=
  .table name none

end Source

namespace Order

def ascending (path : String) : Order :=
  ⟨.ofPath path, .ascending⟩

def descending (path : String) : Order :=
  ⟨.ofPath path, .descending⟩

/-- Reads a path with an optional direction after it; the order is ascending by default. -/
def parse (text : String) : Order :=
  let chars := Text.trimChars text.toList
  let whole := ascending (String.ofList chars)
  match Text.cutLast Text.isBlank chars with
  | some (before, after) =>
      let path := String.ofList (Text.trimChars before)
      match (String.ofList after).toLower with
      | "desc" => descending path
      | "asc" => ascending path
      | _ => whole
  | none => whole

end Order

/-- A limit or an offset; zero means none. -/
def positive? (n : UInt64) : Option UInt64 :=
  if n = 0 then none else some n

def largestCount : Nat :=
  UInt64.size - 1

namespace Select

def empty : Select :=
  { distinct := false
    modifiers := .none
    columns := []
    sources := []
    joins := []
    filter := .always
    group := []
    having := .always
    order := []
    limit := none
    offset := none
    forUpdate := false }

instance : Inhabited Select := ⟨empty⟩

def setDistinct (s : Select) (distinct : Bool) : Select :=
  { s with distinct }

def modifier (s : Select) (modifier : Modifier) : Select :=
  { s with modifiers := s.modifiers.insert modifier }

/-- Adds columns.  Without any, all columns are selected. -/
def addColumns (s : Select) (columns : List Column) : Select :=
  { s with columns := s.columns ++ columns }

def clearColumns (s : Select) : Select :=
  { s with columns := [] }

def addSource (s : Select) (source : Source) : Select :=
  { s with sources := s.sources ++ [source] }

def addJoin (s : Select) (kind : JoinKind) (source : Source) (on : Condition) : Select :=
  { s with joins := s.joins ++ [⟨kind, source, on⟩] }

def addFilter (s : Select) (condition : Condition) : Select :=
  { s with filter := s.filter.both condition }

def addGroup (s : Select) (columns : List Column) : Select :=
  { s with group := s.group ++ columns }

def addHaving (s : Select) (condition : Condition) : Select :=
  { s with having := s.having.both condition }

def addOrder (s : Select) (order : List Order) : Select :=
  { s with order := s.order ++ order }

def clearOrder (s : Select) : Select :=
  { s with order := [] }

def setLimit (s : Select) (limit : UInt64) : Select :=
  { s with limit := positive? limit }

def setOffset (s : Select) (offset : UInt64) : Select :=
  { s with offset := positive? offset }

/-- Goes to a page, counted from one, of as many rows as the limit says at this moment.  An offset
beyond 64 bits stays at the largest number. -/
def setPage (s : Select) (page : UInt64) : Select :=
  s.setOffset (UInt64.ofNat
    (min ((page.toNat - 1) * (s.limit.getD 0).toNat) largestCount))

def setForUpdate (s : Select) (forUpdate : Bool) : Select :=
  { s with forUpdate }

end Select

end RecordMapper
