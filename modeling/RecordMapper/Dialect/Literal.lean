import RecordMapper.Dialect.Quoting
import RecordMapper.Value

/-!
# Literals

How a value stands in a statement.  Arrays are written in braces, with their own rules for the
texts and truth values inside.
-/

namespace RecordMapper.Dialect

/-- A truth value; one dialect stores it as a number. -/
def boolLiteral : Dialect → Bool → String
  | sqlite, b => if b then "1" else "0"
  | _, b => if b then "TRUE" else "FALSE"

/-- A number in all its digits; what is not finite has no literal and becomes null. -/
def floatLiteral (x : Binary64) : String :=
  if x.isFinite then x.text .plain else Keyword.null.text

/-- A text inside an array, in double quotes with backslashes before special characters. -/
def arrayText (text : String) : String :=
  String.ofList ('"' :: text.toList.flatMap
    (fun c => if c = '\\' ∨ c = '"' then ['\\', c] else [c]) ++ ['"'])

mutual

def literal (d : Dialect) : Value → String
  | .null => Keyword.null.text
  | .bool b => d.boolLiteral b
  | .integer n => toString n.toInt
  | .float x => floatLiteral x
  | .text s => d.quoteText s
  | .binary bytes => d.quoteBinary bytes
  | .array items => "\x7b" ++ ",".intercalate (itemLiterals d items) ++ "\x7d"

def itemLiterals (d : Dialect) : List Value → List String
  | [] => []
  | .text s :: rest => arrayText s :: itemLiterals d rest
  | .bool b :: rest => (if b then "true" else "false") :: itemLiterals d rest
  | item :: rest => literal d item :: itemLiterals d rest

end

def arrayLiteral (d : Dialect) (items : List Value) : String :=
  d.literal (.array items)

end RecordMapper.Dialect
