import RecordMapper.Number.Binary64

/-!
# Reading numbers

Whole numbers have an optional sign and decimal digits.  Other numbers have digits before or after
an optional point and an optional exponent; infinity and the word for no number are read in any
case.  Nothing may stand around them.
-/

namespace RecordMapper

def takeSign : List Char → Bool × List Char
  | '-' :: rest => (true, rest)
  | '+' :: rest => (false, rest)
  | text => (false, text)

def digitsValue (digits : List Char) : Nat :=
  digits.foldl (fun value c => value * 10 + (c.toNat - '0'.toNat)) 0

def readInt (text : List Char) : Option Int :=
  let (negative, digits) := takeSign text
  if !digits.isEmpty && digits.all Char.isDigit then
    some (if negative then -(digitsValue digits : Int) else digitsValue digits)
  else none

def readInt64 (text : List Char) : Option Int64 := do
  let n ← readInt text
  if Int64.minValue.toInt ≤ n ∧ n ≤ Int64.maxValue.toInt then some (Int64.ofInt n) else none

/-- The power of ten that an exponent part stands for; no exponent part is the power zero. -/
def readPower : List Char → Option Int
  | [] => some 0
  | c :: rest => if c = 'e' ∨ c = 'E' then readInt rest else none

def takeFraction : List Char → Option (List Char) × List Char
  | '.' :: rest => (some (rest.takeWhile Char.isDigit), rest.dropWhile Char.isDigit)
  | text => (none, text)

namespace Binary64

/-- The number with these digits before and after its point, times a power of ten. -/
def ofDigits (negative : Bool) (before after : List Char) (power : Int) : Binary64 :=
  ofScientific negative (digitsValue (before ++ after)) (power - after.length)

/-- Digits with at least one on either side of an optional point, and an optional exponent. -/
def readUnsigned (negative : Bool) (text : List Char) : Option Binary64 := do
  let before := text.takeWhile Char.isDigit
  let (after?, rest) := takeFraction (text.dropWhile Char.isDigit)
  let after := after?.getD []
  if before.isEmpty && after.isEmpty then none
  else
    let power ← readPower rest
    some (ofDigits negative before after power)

def read (text : List Char) : Option Binary64 :=
  let (negative, rest) := takeSign text
  let word := String.ofList (rest.map Char.toLower)
  if word = "inf" ∨ word = "infinity" then some (ofField negative infinityField)
  else if word = "nan" then some (ofField negative (infinityField + twoPow 51))
  else readUnsigned negative rest

end Binary64

end RecordMapper
