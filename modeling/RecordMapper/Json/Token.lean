import RecordMapper.Json
import RecordMapper.Number.Reading

/-!
# Tokens of JSON text

A scanner walks over the characters once.  Numbers and the three words are collected up to the
next character that cannot belong to them and are read as a whole.
-/

namespace RecordMapper.Json

inductive Token
  | openArray
  | closeArray
  | openObject
  | closeObject
  | comma
  | colon
  | scalar (value : Json)

/-- What the scanner is in the middle of; collected characters stand last first. -/
inductive Mode
  | blank
  | word (read : List Char)
  /-- Inside a string; `high` is the first half of a surrogate pair that waits for its second. -/
  | text (read : List Char) (high : Option Nat)
  | escape (read : List Char) (high : Option Nat)
  | code (read : List Char) (high : Option Nat) (missing : Nat) (value : Nat)

structure Scanner where
  found : List Token
  mode : Mode

/-- The digits of a JSON number: a zero stands alone at the front. -/
def isWholePart : List Char → Bool
  | [] => false
  | ['0'] => true
  | '0' :: _ => false
  | digits => digits.all Char.isDigit

/--
A number.  Without point and exponent it is an integer when 64 bits can hold it with or without a
sign, but a negative zero is not.
-/
def readNumber (text : List Char) : Option Json :=
  let (negative, rest) :=
    match text with
    | '-' :: rest => (true, rest)
    | _ => (false, text)
  let before := rest.takeWhile Char.isDigit
  let tail := rest.dropWhile Char.isDigit
  if !isWholePart before then none
  else if tail.isEmpty then
    let size := digitsValue before
    let n : Int := if negative then -(size : Int) else size
    if (negative && size == 0) || n < Int64.minValue.toInt || UInt64.size ≤ n then
      some (.number (Binary64.ofScientific negative size 0))
    else some (.integer n)
  else
    match takeFraction tail with
    | (some [], _) => none
    | _ => (Binary64.readUnsigned negative rest).map .number

def readWord (text : List Char) : Option Json :=
  match String.ofList text with
  | "null" => some .null
  | "true" => some (.bool true)
  | "false" => some (.bool false)
  | _ => readNumber text

/-- The character that one letter after a backslash stands for. -/
def simpleEscape : Char → Option Char
  | '"' => some '"'
  | '\\' => some '\\'
  | '/' => some '/'
  | 'b' => some '\x08'
  | 'f' => some '\x0c'
  | 'n' => some '\n'
  | 'r' => some '\r'
  | 't' => some '\t'
  | _ => none

/-- Takes in one four-digit code; two surrogates in a row are one character. -/
def takeCode (read : List Char) (high : Option Nat) (value : Nat) : Option Mode :=
  if 0xD800 ≤ value ∧ value < 0xDC00 then
    if high.isNone then some (.text read (some value)) else none
  else if 0xDC00 ≤ value ∧ value < 0xE000 then
    high.map fun first =>
      .text (Char.ofNat (0x10000 + (first - 0xD800) * 0x400 + (value - 0xDC00)) :: read) none
  else if high.isNone then some (.text (Char.ofNat value :: read) none)
  else none

def Scanner.outside (found : List Token) (c : Char) : Scanner :=
  match c with
  | '[' => ⟨.openArray :: found, .blank⟩
  | ']' => ⟨.closeArray :: found, .blank⟩
  | '\x7b' => ⟨.openObject :: found, .blank⟩
  | '\x7d' => ⟨.closeObject :: found, .blank⟩
  | ',' => ⟨.comma :: found, .blank⟩
  | ':' => ⟨.colon :: found, .blank⟩
  | '"' => ⟨found, .text [] none⟩
  | ' ' => ⟨found, .blank⟩
  | '\n' => ⟨found, .blank⟩
  | '\r' => ⟨found, .blank⟩
  | '\t' => ⟨found, .blank⟩
  | c => ⟨found, .word [c]⟩

def continuesWord (c : Char) : Bool :=
  c.isAlphanum || c = '+' || c = '-' || c = '.'

def Scanner.step (s : Scanner) (c : Char) : Option Scanner :=
  match s.mode with
  | .blank => some (Scanner.outside s.found c)
  | .word read =>
      if continuesWord c then some { s with mode := .word (c :: read) }
      else (readWord read.reverse).map fun value => Scanner.outside (.scalar value :: s.found) c
  | .text read high =>
      if c = '\\' then some { s with mode := .escape read high }
      else if high.isSome || c.toNat < 0x20 then none
      else if c = '"' then
        some ⟨.scalar (.string (String.ofList read.reverse)) :: s.found, .blank⟩
      else some { s with mode := .text (c :: read) none }
  | .escape read high =>
      if c = 'u' then some { s with mode := .code read high 4 0 }
      else if high.isSome then none
      else (simpleEscape c).map fun plain => { s with mode := .text (plain :: read) none }
  | .code read high missing value => do
      let digit ← Text.hexValue? c
      let value := value * 16 + digit
      if missing ≤ 1 then
        let mode ← takeCode read high value
        some { s with mode := mode }
      else some { s with mode := .code read high (missing - 1) value }

def tokens (text : List Char) : Option (List Token) := do
  let last ← text.foldlM Scanner.step ⟨[], .blank⟩
  match last.mode with
  | .blank => some last.found.reverse
  | .word read => (readWord read.reverse).map fun value => (.scalar value :: last.found).reverse
  | _ => none

end RecordMapper.Json
