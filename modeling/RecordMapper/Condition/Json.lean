import RecordMapper.Condition

/-!
# Conditions written in JSON

A mapping names fields and operators:

* `field: value` compares, with null read as a missing value and an array as a list of values;
* `field: mapping` with an operator as every name compares once for each of them;
* `operator: operands` is a node; a single operand needs no array;
* `:name`, `:value` and `:plain` are a field, a literal and verbatim SQL.

Several members of a mapping are joined by `AND`.
-/

namespace RecordMapper

namespace Condition

/-- One condition stands for itself; any other number of them is a conjunction. -/
def joined : List Condition → Condition
  | [condition] => condition
  | conditions => .node .and conditions

mutual

/-- The value that a document without objects stands for. -/
def literalOfJson : Json → Attempt Value
  | .null => .ok .null
  | .bool b => .ok (.bool b)
  | .integer n => .ok (Value.ofInt n)
  | .number x => .ok (.float x)
  | .string s => .ok (.text s)
  | .array items => do return .array (← literalsOfJson items)
  | .object members => .error (.objectLiteral (.object members))

def literalsOfJson : List Json → Attempt (List Value)
  | [] => .ok []
  | item :: rest => do
      let value ← literalOfJson item
      let values ← literalsOfJson rest
      return value :: values

end

def namesOperator (name : String) : Bool :=
  name.startsWith ":" || (Operator.parse? name).isSome

def operatorNamed (name : String) : Attempt Operator :=
  match Operator.parse? name with
  | some op => .ok op
  | none => .error (.operatorUnknown name)

def fieldLeaf : Json → Attempt Condition
  | .string path => .ok (ofPath path)
  | input => .error (.nameOperand input)

/-- The SQL of a `:plain` member; what is not a text stands as its JSON. -/
def plainLeaf : Json → Condition
  | .string sql => .raw sql
  | input => .raw input.compact

mutual

def operandOfJson : Json → Attempt Condition
  | .object members => do return joined (← membersOfJson members)
  | input => do return .value (← literalOfJson input)

def operandsOfJson : List Json → Attempt (List Condition)
  | [] => .ok []
  | item :: rest => do
      let operand ← operandOfJson item
      let operands ← operandsOfJson rest
      return operand :: operands

def comparisonOfJson (left : Condition) : Json → Attempt Condition
  | .null => .ok (isNull left)
  | .array items => do return .node .in [left, .value (.array (← literalsOfJson items))]
  | .object members =>
      if members.all fun member => (Operator.parse? member.1).isSome then do
        return joined (← comparisonsOfJson left members)
      else do
        return eq left (joined (← membersOfJson members))
  | input => do return eq left (.value (← literalOfJson input))

def comparisonsOfJson (left : Condition) : List (String × Json) → Attempt (List Condition)
  | [] => .ok []
  | (name, content) :: rest => do
      let op ← operatorNamed name
      let right ← operandOfJson content
      let comparison ← checked op [left, right]
      let comparisons ← comparisonsOfJson left rest
      return comparison :: comparisons

def membersOfJson : List (String × Json) → Attempt (List Condition)
  | [] => .ok []
  | (name, content) :: rest => do
      let condition ←
        if name = ":name" then fieldLeaf content
        else if name = ":value" then Condition.value <$> literalOfJson content
        else if name = ":plain" then pure (plainLeaf content)
        else if namesOperator name then
          let op ← operatorNamed name
          let operands ←
            match content with
            | .array items => operandsOfJson items
            | .object inner => (fun conditions => [joined conditions]) <$> membersOfJson inner
            | single => (fun v => [Condition.value v]) <$> literalOfJson single
          checked op operands
        else comparisonOfJson (ofPath name) content
      let conditions ← membersOfJson rest
      return condition :: conditions

end

mutual

def ofJson : Json → Attempt Condition
  | .object members => do return joined (← membersOfJson members)
  | .array items => do return joined (← ofJsonAll items)
  | .string sql => .ok (.raw sql)
  | input => .error (.conditionShape input)

def ofJsonAll : List Json → Attempt (List Condition)
  | [] => .ok []
  | item :: rest => do
      let condition ← ofJson item
      let conditions ← ofJsonAll rest
      return condition :: conditions

end

end Condition

namespace Column

mutual

/--
The columns that a document stands for.  A name before a text is a new name, a name before an array or
an object is the table of the fields in it, and an operator begins an expression.
-/
def ofJson : Json → Attempt (List Column)
  | .string path => .ok [ofPath path]
  | .array items => ofJsonAll items
  | .object members => ofJsonMembers members
  | input => .error (.columnShape input)

def ofJsonAll : List Json → Attempt (List Column)
  | [] => .ok []
  | item :: rest => do
      let columns ← ofJson item
      let more ← ofJsonAll rest
      return columns ++ more

def ofJsonMembers : List (String × Json) → Attempt (List Column)
  | [] => .ok []
  | (name, content) :: rest => do
      let columns ←
        if name.startsWith ":" then
          (fun tree => [Column.expr tree none]) <$> Condition.ofJson (.object [(name, content)])
        else
          match content with
          | .string path => pure [(ofPath path).named name]
          | .array items => List.map (inTable name) <$> ofJsonAll items
          | .object inner => List.map (inTable name) <$> ofJsonMembers inner
          | single => throw (Error.columnShapeUnder name single)
      let more ← ofJsonMembers rest
      return columns ++ more

end

end Column

end RecordMapper
