import RecordMapper.Condition
import RecordMapper.Dialect.Literal

/-!
# Conditions and selections as SQL

`Condition.body` is the text of a condition without parentheses of its own.  Where a condition
stands decides whether it gets them: `standalone` and `asOperand` put them around a nested
selection, and `asOperand` also around a conjunction or disjunction that joins something.
-/

namespace RecordMapper

structure Operand where
  tree : Condition
  body : Attempt String

namespace Condition

/-- Whether a condition joins at least two others that say something. -/
def joinsSeveral : Condition → Bool
  | .node op operands => op.isConjunction && 1 < (operands.filter fun o => !o.isEmpty).length
  | _ => false

def isSubquery : Condition → Bool
  | .subquery _ => true
  | _ => false

def bounds? : Condition → Option (Value × Value)
  | .value (.array [low, high]) => some (low, high)
  | _ => none

end Condition

def parenthesize (sql : String) : String :=
  "(" ++ sql ++ ")"

def withAlias (d : Dialect) (sql label : String) : String :=
  sql ++ " " ++ Keyword.as.text ++ " " ++ d.quoteIdentifier label

namespace Operand

/-- The text of an operand where nothing stands beside it. -/
def standalone (o : Operand) : Attempt String := do
  let sql ← o.body
  return if o.tree.isSubquery then parenthesize sql else sql

def asOperand (o : Operand) : Attempt String := do
  let sql ← o.body
  return if o.tree.isSubquery || o.tree.joinsSeveral then parenthesize sql else sql

def asList (d : Dialect) (o : Operand) : Attempt String :=
  match o.tree with
  | .value (.array []) => .ok Keyword.null.text
  | .value (.array items) => .ok (", ".intercalate (items.map d.literal))
  | _ => o.body

def asName (d : Dialect) (o : Operand) : Attempt String :=
  match o.tree with
  | .field ref => .ok (d.quoteIdentifier ref.name)
  | .value (.text name) => .ok (d.quoteIdentifier name)
  | _ => o.standalone

end Operand

def operandTexts (operands : List Operand) : Attempt (List String) :=
  operands.mapM Operand.asOperand

/-- Texts with a keyword between each two, those without content left out. -/
def joinTexts (keyword : Keyword) (texts : List String) : String :=
  (" " ++ keyword.text ++ " ").intercalate (texts.filter fun text => !text.isEmpty)

namespace Operator

def betweenText (d : Dialect) (op : Operator) (keyword : Keyword) (left pair : Operand) :
    Attempt String :=
  match pair.tree.bounds? with
  | some (low, high) => do
      return (← left.asOperand) ++ " " ++ keyword.text ++ " " ++ d.literal low ++ " " ++
        Keyword.and.text ++ " " ++ d.literal high
  | none => .error (.boundsNotPair op)

def memberText (d : Dialect) (keyword : Keyword) (left list : Operand) : Attempt String := do
  let leftText ← left.asOperand
  return leftText ++ " " ++ keyword.text ++ " " ++ parenthesize (← list.asList d)

/-- The text of a node.  Operands that do not fit the operator are an error of their number. -/
def layout (d : Dialect) (op : Operator) (operands : List Operand) : Attempt String :=
  match op, operands with
  | .and, operands => do return joinTexts .and (← operandTexts operands)
  | .or, operands => do return joinTexts .or (← operandTexts operands)
  | .not, [operand] => do
      return Keyword.not.text ++ " " ++ parenthesize (← operand.standalone)
  | .between, [left, pair] => betweenText d .between .between left pair
  | .notBetween, [left, pair] => betweenText d .notBetween .notBetween left pair
  | .in, [left, list] => memberText d .in left list
  | .notIn, [left, list] => memberText d .notIn left list
  | .any, [source] => do return Keyword.any.text ++ " " ++ parenthesize (← source.body)
  | .any, [left, source] => do
      let leftText ← left.asOperand
      return leftText ++ " " ++ Keyword.any.text ++ " " ++ parenthesize (← source.body)
  | .exists, [source] => do return Keyword.exists.text ++ " " ++ parenthesize (← source.body)
  | .notExists, [source] => do
      return Keyword.notExists.text ++ " " ++ parenthesize (← source.body)
  | .distinct, first :: rest => do
      return Keyword.distinct.text ++ " " ++ ", ".intercalate (← operandTexts (first :: rest))
  | .as, [expr, name] => do
      let nameText ← name.asName d
      return (← expr.asOperand) ++ " " ++ Keyword.as.text ++ " " ++ nameText
  | .function name, operands => do
      if operands.isEmpty && name == "COUNT" then return name ++ "(" ++ Keyword.star.text ++ ")"
      else return name ++ parenthesize (", ".intercalate (← operandTexts operands))
  | op, [left, right] =>
      match op.infixKeyword? with
      | some keyword => do
          let leftText ← left.asOperand
          return leftText ++ " " ++ keyword.text ++ " " ++ (← right.asOperand)
      | none => .error (.operandCount op 2)
  | op, operands => .error (.operandCount op operands.length)

end Operator

/-! ## Parts of statements -/

/-- A keyword and a condition after it, or nothing when the condition says nothing. -/
def clauseText (keyword : Keyword) (condition : Condition) (text : Attempt String) :
    Attempt String :=
  if condition.isEmpty then .ok ""
  else do
    let sql ← text
    return if sql.isEmpty then "" else " " ++ keyword.text ++ " " ++ sql

def modifiersText (d : Dialect) (kind : StatementKind) (modifiers : Modifiers) :
    Attempt String := do
  let texts ← modifiers.toList.mapM fun modifier =>
    if d.supportsModifier kind modifier then Except.ok (" " ++ modifier.text)
    else Except.error (Error.modifierUnsupported modifier d)
  return String.join texts

def columnListText (texts : List String) : String :=
  ", ".intercalate texts.eraseDups

def orderText (entries : List String) : String :=
  if entries.isEmpty then ""
  else " " ++ Keyword.orderBy.text ++ " " ++ ", ".intercalate entries

def limitText (limit : Option UInt64) : String :=
  match limit with
  | some n => " " ++ Keyword.limit.text ++ " " ++ toString n.toNat
  | none => ""

/-- An offset is written only beside a limit. -/
def offsetText (limit offset : Option UInt64) : String :=
  match limit, offset with
  | some _, some n => " " ++ Keyword.offset.text ++ " " ++ toString n.toNat
  | _, _ => ""

namespace Direction

def keyword : Direction → Keyword
  | ascending => .asc
  | descending => .desc

end Direction

namespace JoinKind

def keyword : JoinKind → Keyword
  | inner => .innerJoin
  | left => .leftJoin
  | right => .rightJoin

end JoinKind

/-! ## Texts of trees -/

mutual

def Condition.body (d : Dialect) : Condition → Attempt String
  | .value v => .ok (d.literal v)
  | .field ref => .ok (ref.render d)
  | .raw sql => .ok sql
  | .subquery select => select.render d
  | .node op operands => op.layout d (operandBodies d operands)

def operandBodies (d : Dialect) : List Condition → List Operand
  | [] => []
  | operand :: rest => ⟨operand, operand.body d⟩ :: operandBodies d rest

/-- A column; a star is refused where it may not stand. -/
def Column.render (d : Dialect) (starAllowed : Bool) : Column → Attempt String
  | .field ref label? =>
      if ref.name = "*" ∧ starAllowed = false then .error .starRefused
      else
        match label? with
        | some label => .ok (withAlias d (ref.render d) label)
        | none => .ok (ref.render d)
  | .expr tree label? => do
      let sql ← Operand.standalone ⟨tree, tree.body d⟩
      match label? with
      | some label => return withAlias d sql label
      | none => return sql
  | .subquery select label => do
      return withAlias d (parenthesize (← select.render d)) label

def columnTexts (d : Dialect) (starAllowed : Bool) : List Column → Attempt (List String)
  | [] => .ok []
  | column :: rest => do
      let text ← column.render d starAllowed
      let texts ← columnTexts d starAllowed rest
      return text :: texts

def Source.render (d : Dialect) : Source → Attempt String
  | .table name none => .ok (d.quotePath name)
  | .table name (some label) => .ok (withAlias d (d.quotePath name) label)
  | .subquery select label => do
      return withAlias d (parenthesize (← select.render d)) label

def sourceTexts (d : Dialect) : List Source → Attempt (List String)
  | [] => .ok []
  | source :: rest => do
      let text ← source.render d
      let texts ← sourceTexts d rest
      return text :: texts

def Join.render (d : Dialect) : Join → Attempt String
  | ⟨kind, source, on⟩ => do
      let text ← source.render d
      let clause ← clauseText .on on (Operand.standalone ⟨on, on.body d⟩)
      return " " ++ kind.keyword.text ++ " " ++ text ++ clause

def joinTextsOf (d : Dialect) : List Join → Attempt (List String)
  | [] => .ok []
  | join :: rest => do
      let text ← join.render d
      let texts ← joinTextsOf d rest
      return text :: texts

def Order.render (d : Dialect) : Order → Attempt String
  | ⟨expr, direction⟩ => do
      let sql ← Operand.standalone ⟨expr, expr.body d⟩
      return sql ++ " " ++ direction.keyword.text

def orderTexts (d : Dialect) : List Order → Attempt (List String)
  | [] => .ok []
  | entry :: rest => do
      let text ← entry.render d
      let texts ← orderTexts d rest
      return text :: texts

def Select.render (d : Dialect) : Select → Attempt String
  | ⟨distinct, modifiers, columns, sources, joins, filter, group, having, order, limit, offset,
      forUpdate⟩ => do
    if sources.isEmpty then throw (.clauseMissing Keyword.select.text Keyword.from.text)
    let modifiersSql ← modifiersText d .select modifiers
    let columnsSql ← columnTexts d true columns
    let sourcesSql ← sourceTexts d sources
    let joinsSql ← joinTextsOf d joins
    let filterSql ← clauseText .where filter (Operand.standalone ⟨filter, filter.body d⟩)
    let groupSql ← columnTexts d false group
    let havingSql ← clauseText .having having (Operand.standalone ⟨having, having.body d⟩)
    let orderSql ← orderTexts d order
    return Keyword.select.text ++
      (if distinct then " " ++ Keyword.distinct.text else "") ++ modifiersSql ++ " " ++
      (if columns.isEmpty then Keyword.star.text else columnListText columnsSql) ++ " " ++
      Keyword.from.text ++ " " ++ ", ".intercalate sourcesSql ++ String.join joinsSql ++
      filterSql ++
      (if group.isEmpty then ""
        else " " ++ Keyword.groupBy.text ++ " " ++ columnListText groupSql) ++
      havingSql ++ orderText orderSql ++ limitText limit ++ offsetText limit offset ++
      (if forUpdate then " " ++ Keyword.forUpdate.text else "")

end

/-- The text of a condition that stands alone; a condition that says nothing has none. -/
def Condition.render (d : Dialect) (condition : Condition) : Attempt String :=
  Operand.standalone ⟨condition, condition.body d⟩

def renderColumns (d : Dialect) (starAllowed : Bool) (columns : List Column) :
    Attempt String := do
  return columnListText (← columnTexts d starAllowed columns)

def renderClause (d : Dialect) (keyword : Keyword) (condition : Condition) : Attempt String :=
  clauseText keyword condition (condition.render d)

def renderOrder (d : Dialect) (order : List Order) : Attempt String := do
  return orderText (← orderTexts d order)

end RecordMapper
