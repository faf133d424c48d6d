import RecordMapper.Text.LetterCase
import RecordMapper.Text.Segment

/-!
# Snake case

A name is cut into words, and the words are joined in lower case by `_`.  A word ends at a
character that is neither letter nor number, between a lower-case and an upper-case letter
(`imageTag`), and before the last letter of a run of capitals that a lower-case letter follows
(`HTTPServer`).  Digits take the case of the letter before them.
-/

namespace RecordMapper.Text

/-- The case of the letters read last, within one word. -/
inductive LetterMode
  | start
  | lower
  | upper
  deriving DecidableEq

def LetterMode.after (mode : LetterMode) (c : Char) : LetterMode :=
  if isLowercase c then .lower else if isUppercase c then .upper else mode

/--
The words of a run of letters and numbers.  `word` holds, last first, the characters already read
of the current word.
-/
def wordsFrom (mode : LetterMode) (word : List Char) : List Char → List (List Char)
  | [] => []
  | [c] => [(c :: word).reverse]
  | c :: next :: rest =>
      if mode.after c = .lower ∧ isUppercase next then
        (c :: word).reverse :: wordsFrom .start [] (next :: rest)
      else if mode = .upper ∧ isUppercase c ∧ isLowercase next then
        word.reverse :: wordsFrom .start [c] (next :: rest)
      else wordsFrom (mode.after c) (c :: word) (next :: rest)

def words (name : String) : List (List Char) :=
  (segments (!isAlphanumeric ·) name.toList).flatMap (wordsFrom .start [])

/-- A name in lower case with `_` between its words. -/
def snakeCase (name : String) : String :=
  "_".intercalate ((words name).map fun word => String.ofList (lowercaseWord word))

end RecordMapper.Text
