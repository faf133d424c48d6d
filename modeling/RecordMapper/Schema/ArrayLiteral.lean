import RecordMapper.Text.Blank
import RecordMapper.Value

/-!
# Reading array literals

Items stand between braces with commas between them.  Double quotes protect commas and blanks, and a
backslash inside them protects the next character.  Every item is read as a text, and only `NULL`
without quotes as null.
-/

namespace RecordMapper.ArrayLiteral

inductive Place
  | outside
  | inside
  /-- After a backslash inside quotes. -/
  | escaped
  deriving DecidableEq

/-- The value of an item.  Blanks around it count only when part of it was in quotes. -/
def itemValue (chars : List Char) (wasQuoted : Bool) : Value :=
  let text := if wasQuoted then String.ofList chars else String.ofList (Text.trimChars chars)
  if !wasQuoted && text == "NULL" then .null else .text text

/-- The items of a literal without its braces; `read` holds, last first, the current item. -/
def readItems (place : Place) (wasQuoted : Bool) (read : List Char) : List Char → List Value
  | [] => [itemValue read.reverse wasQuoted]
  | c :: rest =>
      match place with
      | .escaped => readItems .inside wasQuoted (c :: read) rest
      | .inside =>
          if c = '\\' then readItems .escaped wasQuoted read rest
          else if c = '"' then readItems .outside true read rest
          else readItems .inside wasQuoted (c :: read) rest
      | .outside =>
          if c = '"' then readItems .inside true read rest
          else if c = ',' then
            itemValue read.reverse wasQuoted :: readItems .outside false [] rest
          else readItems .outside wasQuoted (c :: read) rest

def unbraced? (text : List Char) : Option (List Char) :=
  match Text.trimChars text with
  | '\x7b' :: rest =>
      match rest.reverse with
      | '\x7d' :: inner => some inner.reverse
      | _ => none
  | _ => none

/-- The items of a literal.  A text without braces is read as if it stood between them. -/
def read (text : String) : List Value :=
  let inner := (unbraced? text.toList).getD text.toList
  if (Text.trimChars inner).isEmpty then [] else readItems .outside false [] inner

end RecordMapper.ArrayLiteral
