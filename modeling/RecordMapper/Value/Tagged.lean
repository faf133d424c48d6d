import RecordMapper.Field.Json
import RecordMapper.Row
import RecordMapper.Text.Hex
import RecordMapper.Value.Key

/-!
# Tagged values

A JSON form of values that keeps all of them apart: floating-point numbers and bytes, for which JSON
has no form of its own, are written in hexadecimal digits under a tag.  All words that are no number
are written alike.
-/

namespace RecordMapper

namespace Binary64

def nan : Binary64 :=
  ⟨0x7ff8000000000000⟩

def bytes (x : Binary64) : List UInt8 :=
  (List.range 8).map fun i => .ofNat (x.bits.toNat >>> (56 - 8 * i))

/-- The sixteen digits of a word, or a name for what is no number. -/
def hexText (x : Binary64) : String :=
  if x.isNaN then "nan" else String.ofList (Text.hexBytes x.bytes)

def ofHexText? (text : String) : Option Binary64 :=
  if text = "nan" then some nan
  else do
    let bytes ← Text.ofHexBytes? text.toList
    if bytes.length = 8 then
      return ⟨.ofNat (bytes.foldl (fun n byte => n * 256 + byte.toNat) 0)⟩
    else none

end Binary64

namespace Value

mutual

def toTagged : Value → Json
  | null => .null
  | bool b => .bool b
  | integer n => .integer n.toInt
  | float x => .object [("f", .string x.hexText)]
  | text s => .string s
  | binary bytes => .object [("b", .string (String.ofList (Text.hexBytes bytes)))]
  | array items => .array (toTaggedAll items)

def toTaggedAll : List Value → List Json
  | [] => []
  | item :: rest => toTagged item :: toTaggedAll rest

end

mutual

def ofTagged? : Json → Option Value
  | .null => some .null
  | .bool b => some (.bool b)
  | .integer n => some (ofInt n)
  | .number x => some (.float x)
  | .string s => some (.text s)
  | .object [("f", .string digits)] => (Binary64.ofHexText? digits).map .float
  | .object [("b", .string digits)] => (Text.ofHexBytes? digits.toList).map .binary
  | .object _ => none
  | .array items => (ofTaggedAll? items).map .array

def ofTaggedAll? : List Json → Option (List Value)
  | [] => some []
  | item :: rest =>
      match ofTagged? item, ofTaggedAll? rest with
      | some value, some values => some (value :: values)
      | _, _ => none

end

end Value

namespace Key

mutual

def toTagged : Key → Json
  | integer n => .object [("int", .integer n.toInt)]
  | float bits => .object [("float", .string (Binary64.mk bits).hexText)]
  | text s => .object [("text", .string s)]
  | binary bytes => .object [("binary", .string (String.ofList (Text.hexBytes bytes)))]
  | composite parts => .object [("list", .array (toTaggedAll parts))]

def toTaggedAll : List Key → List Json
  | [] => []
  | part :: rest => toTagged part :: toTaggedAll rest

end

end Key

namespace Row

def toTagged (row : Row) : Json :=
  .array (row.pairs.map fun (name, value) => .array [.string name, value.toTagged])

/-- Named values in a list of pairs; a name may be repeated. -/
def pairsOfTagged? : Json → Option (List (String × Value)) :=
  Json.list (Json.pair Json.text Value.ofTagged?)

/-- A row in a list of pairs; a repeated name keeps its first place and its last value. -/
def ofTagged? (json : Json) : Option Row :=
  (pairsOfTagged? json).map ofPairs

end Row

end RecordMapper
