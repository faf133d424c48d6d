/-!
# Hexadecimal digits
-/

namespace RecordMapper.Text

def hexByte (byte : UInt8) : List Char :=
  [Nat.digitChar (byte.toNat / 16), Nat.digitChar (byte.toNat % 16)]

def hexBytes (bytes : List UInt8) : List Char :=
  bytes.flatMap hexByte

/-- The number that a digit in capital or small letters stands for. -/
def hexValue? (c : Char) : Option Nat :=
  if c.isDigit then some (c.toNat - '0'.toNat)
  else if 'a' ≤ c ∧ c ≤ 'f' then some (c.toNat - 'a'.toNat + 10)
  else if 'A' ≤ c ∧ c ≤ 'F' then some (c.toNat - 'A'.toNat + 10)
  else none

def ofHexBytes? : List Char → Option (List UInt8)
  | [] => some []
  | high :: low :: rest => do
      let byte := 16 * (← hexValue? high) + (← hexValue? low)
      return .ofNat byte :: (← ofHexBytes? rest)
  | [_] => none

end RecordMapper.Text
