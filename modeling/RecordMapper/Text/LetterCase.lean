import RecordMapper.Text.LetterTable

/-!
# Letter case

Tests on single characters and the lower-case form of a word.  Below code point 128 the answer is
read off the code, above it from the tables.
-/

namespace RecordMapper.Text

def isAlphanumeric (c : Char) : Bool :=
  if c.toNat < 128 then c.isAlphanum
  else alphanumericRuns.any (CodeRun.holds · c.toNat)

def isLowercase (c : Char) : Bool :=
  if c.toNat < 128 then c.isLower
  else lowercaseRuns.any (CodeRun.holds · c.toNat)

def isUppercase (c : Char) : Bool :=
  if c.toNat < 128 then c.isUpper
  else uppercaseRuns.any (CodeRun.holds · c.toNat)

/-- The lower-case form of a character; only the capital I with a dot above has two characters. -/
def lowercaseOf (c : Char) : List Char :=
  if c.toNat < 128 then [c.toLower]
  else if c = 'İ' then ['i', '\u0307']
  else
    match lowerOffsets.find? (fun entry => entry.1.holds c.toNat) with
    | some (_, offset) => [Char.ofNat (c.toNat + offset).toNat]
    | none => [c]

/-- The lower-case form of a word.  A capital sigma at its end becomes a final sigma. -/
def lowercaseWord : List Char → List Char
  | [] => []
  | ['Σ'] => ['ς']
  | c :: rest => lowercaseOf c ++ lowercaseWord rest

end RecordMapper.Text
