import RecordMapper.Number.Layout

/-!
# Values

What the fields of rows and records hold, its plain text, and the equality by which a changed
field is told from an unchanged one.
-/

namespace RecordMapper

inductive Value
  | null
  | bool (b : Bool)
  | integer (n : Int64)
  | float (x : Binary64)
  | text (s : String)
  | binary (bytes : List UInt8)
  | array (items : List Value)
  deriving Inhabited

namespace Value

def isNull : Value → Bool
  | null => true
  | _ => false

/-- An integer, or the nearest number when 64 bits with a sign cannot hold it. -/
def ofInt (n : Int) : Value :=
  if Int64.minValue.toInt ≤ n ∧ n ≤ Int64.maxValue.toInt then integer (Int64.ofInt n)
  else float (Binary64.ofInt n)

/-! ## Readings -/

/-- A whole number; truth counts as one. -/
def asInteger? : Value → Option Int64
  | integer n => some n
  | bool b => some (if b then 1 else 0)
  | _ => none

/-- A number; an integer is rounded to the nearest floating-point number. -/
def asFloat? : Value → Option Binary64
  | float x => some x
  | integer n => some (Binary64.ofInt n.toInt)
  | _ => none

/-- A truth value; every integer but zero is true. -/
def asBool? : Value → Option Bool
  | bool b => some b
  | integer n => some (n != 0)
  | _ => none

def asText? : Value → Option String
  | text s => some s
  | _ => none

def asArray? : Value → Option (List Value)
  | array items => some items
  | _ => none

/-! ## Plain text -/

mutual

/-- The text of a value as it stands in messages and in text fields. -/
def display : Value → String
  | null => "NULL"
  | bool true => "true"
  | bool false => "false"
  | integer n => toString n.toInt
  | float x => x.text .plain
  | text s => s
  | binary bytes => "<" ++ toString bytes.length ++ " bytes>"
  | array items => "\x7b" ++ ",".intercalate (displayAll items) ++ "\x7d"

def displayAll : List Value → List String
  | [] => []
  | item :: rest => display item :: displayAll rest

end

/-! ## Equality -/

mutual

/-- Equality of values.  Floating-point numbers are compared as numbers. -/
def equals : Value → Value → Bool
  | null, null => true
  | bool a, bool b => a == b
  | integer a, integer b => a == b
  | float a, float b => a.equals b
  | text a, text b => a == b
  | binary a, binary b => a == b
  | array a, array b => equalsAll a b
  | _, _ => false

def equalsAll : List Value → List Value → Bool
  | [], [] => true
  | a :: as, b :: bs => equals a b && equalsAll as bs
  | _, _ => false

end

/-- Equality of values that may be absent. -/
def equalsOption : Option Value → Option Value → Bool
  | none, none => true
  | some a, some b => equals a b
  | _, _ => false

end Value

end RecordMapper
