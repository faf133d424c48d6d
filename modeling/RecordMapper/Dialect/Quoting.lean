import RecordMapper.Dialect
import RecordMapper.Text.Hex
import RecordMapper.Text.Segment

/-!
# Quoting

Identifiers, string literals and binary literals of each dialect.  Inside quotes the quote itself
is written twice; where the backslash is an escape it is written twice as well.
-/

namespace RecordMapper

namespace Quoting

def double (special : Char → Bool) (text : List Char) : List Char :=
  text.flatMap fun c => if special c then [c, c] else [c]

def enclose (quote : Char) (special : Char → Bool) (text : List Char) : List Char :=
  quote :: double special text ++ [quote]

end Quoting

namespace Dialect

def quoteIdentifier (d : Dialect) (name : String) : String :=
  String.ofList (Quoting.enclose d.quoteChar (· == d.quoteChar) name.toList)

/-- One part of a dotted name; a star stands for itself. -/
def quotePart (d : Dialect) (part : String) : String :=
  if part = "*" then part else d.quoteIdentifier part

def quotePath (d : Dialect) (path : String) : String :=
  ".".intercalate ((Text.split '.' path).map d.quotePart)

def isDoubledInText (d : Dialect) (c : Char) : Bool :=
  c == '\'' || (d.escapesBackslash && c == '\\')

def quoteText (d : Dialect) (text : String) : String :=
  String.ofList (Quoting.enclose '\'' d.isDoubledInText text.toList)

/-- A binary literal: capital digits after an `X`, or small digits after `\x` inside the quotes. -/
def quoteBinary (d : Dialect) (bytes : List UInt8) : String :=
  let digits := Text.hexBytes bytes
  match d with
  | postgresql => String.ofList ("'\\x".toList ++ digits ++ ['\''])
  | _ => String.ofList ("X'".toList ++ digits.map Char.toUpper ++ ['\''])

end Dialect

end RecordMapper
