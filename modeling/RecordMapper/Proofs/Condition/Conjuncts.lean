import RecordMapper.Proofs.Dialect.Quotes
import RecordMapper.Statement.Rendering

/-!
# The conjuncts of a text

A reader takes any text as conditions that `AND` joins.  `OR` binds weaker than `AND`, so that a text
with an `OR` outside quotes and parentheses is no conjunction; `NOT` binds closer and belongs to what
follows it, and the `AND` after `BETWEEN` joins its bounds.  Words are made of letters, digits and
underscores, and keywords may stand in capital or small letters.  What would end the statement, begin
a comment or open quotes of another kind is refused.
-/

namespace RecordMapper

/-- The keyword that a word is, if it joins conditions or bounds. -/
def connective? (word : List Char) : Option Keyword :=
  [Keyword.and, .or, .between].find? fun keyword => keyword.text.toList == word.map Char.toUpper

def isWordChar (c : Char) : Bool :=
  c.isAlphanum || c == '_'

/-- Whether a text ends with no character that could begin a comment. -/
def isSafe (text : List Char) : Bool :=
  text.getLast? != some '-' && text.getLast? != some '/'

/-- Whether a character opens quotes that are not read here, or brackets. -/
def Dialect.isForeign (d : Dialect) (c : Char) : Bool :=
  ['"', '\x60', '[', '$'].contains c && c != d.quoteChar

/-- Whether a character outside quotes hides what follows it: it ends the statement, opens foreign
quotes or, after another one, begins a comment. -/
def Dialect.hides (d : Dialect) (last? : Option Char) (c : Char) : Bool :=
  c == ';' || (c == '#' && d == .mysql) || d.isForeign c || (c == '-' && last? == some '-') ||
    (c == '*' && last? == some '/')

/-- Where a reader of conjuncts stands.  The present conjunct is read up to the end of a word. -/
structure Scanner where
  quotes : Quotes
  /-- How many parentheses are open. -/
  depth : Nat
  /-- How many bounds are still to be joined by `AND`. -/
  bounds : Nat
  /-- The present conjunct before the word. -/
  before : List Char
  /-- A word outside quotes and parentheses. -/
  word : List Char

namespace Scanner

def start : Scanner :=
  ⟨.outside, 0, 0, [], []⟩

def text (s : Scanner) : List Char :=
  s.before ++ s.word

def push (s : Scanner) (c : Char) : Scanner :=
  { s with before := s.text ++ [c], word := [] }

def withoutBlank (text : List Char) : List Char :=
  if text.getLast?.any Char.isWhitespace then text.dropLast else text

/-- The conjunct that the end of the word ends, if any, and the scanner before what follows. -/
def endWord (s : Scanner) : Option (List String × Scanner) :=
  match connective? s.word with
  | none => some ([], s)
  | some .between => some ([], { s with bounds := s.bounds + 1 })
  | some .and =>
      if 0 < s.bounds then some ([], { s with bounds := s.bounds - 1 })
      else some ([String.ofList (withoutBlank s.before)], start)
  | some _ => none

def mark (d : Dialect) (s : Scanner) (c : Char) : Option Scanner :=
  if c = '(' then some { s.push c with depth := s.depth + 1 }
  else if c = ')' then
    if s.depth = 0 then none else some { s.push c with depth := s.depth - 1 }
  else some { s.push c with quotes := s.quotes.next d c }

def extend (s : Scanner) (c : Char) : Scanner :=
  if s.depth = 0 then { s with word := s.word ++ [c] } else s.push c

/-- The scanner after a character that ends a word.  The blank after an `AND` belongs to no
conjunct. -/
def separate (d : Dialect) (s : Scanner) (c : Char) : Option (List String × Scanner) :=
  match s.endWord with
  | none => none
  | some (found, s) =>
      if !found.isEmpty && c.isWhitespace then some (found, s)
      else (s.mark d c).map fun s => (found, s)

def step (d : Dialect) (s : Scanner) (c : Char) : Option (List String × Scanner) :=
  match s.quotes with
  | .outside =>
      if d.hides s.text.getLast? c then none
      else if isWordChar c then some ([], s.extend c)
      else s.separate d c
  | quotes => some ([], { s.push c with quotes := quotes.next d c })

/-- The conjuncts that end in a text, and where the reader stands after it. -/
def read (d : Dialect) : Scanner → List Char → Option (List String × Scanner)
  | s, [] => some ([], s)
  | s, c :: rest =>
      match s.step d c with
      | none => none
      | some (found, s) => (read d s rest).map fun (others, s) => (found ++ others, s)

/-- The last conjunct.  It must not end in quotes, in parentheses, before a bound, with a word that
joins or with a sign that could begin a comment. -/
def last? (s : Scanner) : Option String :=
  match s.quotes, s.depth, s.bounds, connective? s.word with
  | .outside, 0, 0, none =>
      if isSafe s.text then some (String.ofList s.text) else none
  | _, _, _, _ => none

end Scanner

def Dialect.conjuncts? (d : Dialect) (sql : String) : Option (List String) :=
  match Scanner.start.read d sql.toList with
  | none => none
  | some (found, s) => s.last?.map fun last => found ++ [last]

example : Dialect.conjuncts? .generic "\"a b\" = 'x AND y' and n BETWEEN 1 AND 2" =
    some ["\"a b\" = 'x AND y'", "n BETWEEN 1 AND 2"] := by
  decide

example : Dialect.conjuncts? .generic "a = 1 OR b = 2" = none := by
  decide

namespace Scanner

variable {d : Dialect} {s s' : Scanner} {c : Char} {text rest : List Char} {found : List String}

/-! ## Reading on -/

theorem read_append (s : Scanner) (text rest : List Char) :
    s.read d (text ++ rest) = (s.read d text).bind fun (found, s) =>
      (s.read d rest).map fun (others, s) => (found ++ others, s) := by
  induction text generalizing s with
  | nil => simp [read]
  | cons c text ih =>
      rw [List.cons_append, read, read]
      cases s.step d c with
      | none => rfl
      | some next =>
          dsimp only
          rw [ih]
          cases (next.2.read d text) with
          | none => rfl
          | some middle =>
              simp only [Option.bind_some, Option.map_some, Option.map_map]
              refine congrFun (congrArg Option.map ?_) _
              funext last
              simp only [Function.comp, List.append_assoc]

theorem read_of_read (h : s.read d text = some ([], s')) (rest : List Char) :
    s.read d (text ++ rest) = s'.read d rest := by
  rw [read_append, h]
  simp

theorem read_of_step (h : s.step d c = some ([], s')) (rest : List Char) :
    s.read d (c :: rest) = s'.read d rest := by
  rw [read, h]
  simp

theorem step_of_inert (hquotes : s.quotes = .outside) (hword : connective? s.word = none)
    (hhides : d.hides s.text.getLast? c = false) (hc : isWordChar c = false) :
    s.step d c = (s.mark d c).map fun s => ([], s) := by
  simp [step, hquotes, hhides, hc, separate, endWord, hword]

theorem last?_eq_some {last : String} (h : s.last? = some last) :
    s.quotes = .outside ∧ s.depth = 0 ∧ s.bounds = 0 ∧ connective? s.word = none ∧
      isSafe s.text = true ∧ last = String.ofList s.text := by
  unfold last? at h
  split at h
  next hquotes hdepth hbounds hword =>
      split at h
      next hsafe =>
          cases h
          exact ⟨hquotes, hdepth, hbounds, hword, hsafe, rfl⟩
      next => cases h
  next => cases h

theorem connective?_nil : connective? [] = none := by
  decide

theorem connective?_and : connective? ['A', 'N', 'D'] = some .and := by
  decide

/-- Behind a conjunct `AND` begins another one. -/
theorem read_and {last : String} (h : s.last? = some last) :
    s.read d " AND ".toList = some ([last], start) := by
  obtain ⟨hquotes, hdepth, hbounds, hword, -, rfl⟩ := last?_eq_some h
  have hgap : s.step d ' ' = some ([], ⟨.outside, 0, 0, s.text ++ [' '], []⟩) := by
    rw [step_of_inert hquotes hword rfl rfl, mark, if_neg (by decide), if_neg (by decide), hquotes]
    have hnext : Quotes.next d .outside ' ' = .outside := by cases d <;> rfl
    rw [hnext, push, hdepth, hbounds]
    rfl
  have hkeyword : ∀ before : List Char, before.getLast? = some ' ' →
      read d ⟨.outside, 0, 0, before, []⟩ ['A', 'N', 'D', ' '] =
        some ([String.ofList before.dropLast], start) := by
    intro before hlast
    simp [read, step, extend, separate, text, Dialect.hides, Dialect.isForeign, isWordChar, endWord,
      connective?_and,
      withoutBlank, hlast]
  have htext : " AND ".toList = ' ' :: ['A', 'N', 'D', ' '] := by decide
  rw [htext, read_of_step hgap, hkeyword _ List.getLast?_concat, List.dropLast_concat]

end Scanner

/-! ## One text in several places -/

namespace Scanner

variable {d : Dialect} {s s' : Scanner} {c : Char} {text : List Char}

def behind (before : List Char) (bounds : Nat) (s : Scanner) : Scanner :=
  { s with bounds := s.bounds + bounds, before := before ++ s.before }

def within (before : List Char) (depth bounds : Nat) (s : Scanner) : Scanner :=
  ⟨s.quotes, s.depth + depth + 1, bounds, before ++ s.text, []⟩

theorem hides_append {before text : List Char} (hsafe : isSafe before = true)
    (h : d.hides text.getLast? c = false) : d.hides (before ++ text).getLast? c = false := by
  cases hlast : text.getLast? with
  | none =>
      rw [List.getLast?_eq_none_iff.mp hlast, List.append_nil]
      simp only [isSafe, Bool.and_eq_true, bne_iff_ne] at hsafe
      rw [hlast] at h
      simp only [Dialect.hides, Bool.or_eq_false_iff] at h ⊢
      simp [h, hsafe]
  | some last =>
      rw [hlast] at h
      rwa [List.getLast?_append, hlast, Option.some_or]

theorem endWord_eq_some (h : s.endWord = some ([], s')) :
    (∃ bounds, s' = { s with bounds }) ∧
      ∀ before bounds, (s.behind before bounds).endWord = some ([], s'.behind before bounds) := by
  unfold endWord at h
  split at h
  next hword =>
      cases h
      exact ⟨⟨s.bounds, rfl⟩, fun before bounds => by simp [endWord, behind, hword]⟩
  next hword =>
      cases h
      refine ⟨⟨_, rfl⟩, fun before bounds => ?_⟩
      simp [endWord, behind, hword, Nat.add_right_comm]
  next hword =>
      split at h
      next hbounds =>
          cases h
          refine ⟨⟨_, rfl⟩, fun before bounds => ?_⟩
          have hmore : 0 < s.bounds + bounds := Nat.add_pos_left hbounds _
          simp [endWord, behind, hword, hmore, Nat.sub_add_comm hbounds]
      next => cases h
  next => cases h

theorem mark_eq_some (h : s.mark d c = some s') :
    s'.text = s.text ++ [c] ∧ s'.word = [] ∧
      (∀ before bounds, (s.behind before bounds).mark d c = some (s'.behind before bounds)) ∧
      ∀ before depth bounds, (s.within before depth bounds).mark d c =
        some (s'.within before depth bounds) := by
  unfold mark at h
  split at h
  next hopening =>
      cases h
      subst hopening
      simp [mark, push, behind, within, text, Nat.add_right_comm]
  next hopening =>
      split at h
      next hclosing =>
          split at h
          next => cases h
          next hdepth =>
              cases h
              subst hclosing
              have hinner : s.depth + 1 - 1 = s.depth - 1 + 1 := by omega
              have hsub : ∀ depth, s.depth + depth = s.depth - 1 + depth + 1 := by omega
              simp [mark, push, behind, within, text, hdepth, hsub]
      next hclosing =>
          cases h
          simp [mark, push, behind, within, text, hopening, hclosing]

theorem text_push (s : Scanner) (c : Char) : (s.push c).text = s.text ++ [c] :=
  List.append_nil _

@[simp] theorem text_behind (before : List Char) (bounds : Nat) (s : Scanner) :
    (s.behind before bounds).text = before ++ s.text := by
  simp [behind, text]

@[simp] theorem text_within (before : List Char) (depth bounds : Nat) (s : Scanner) :
    (s.within before depth bounds).text = before ++ s.text :=
  List.append_nil _

theorem hides_behind {before : List Char} (hsafe : isSafe before = true) (bounds : Nat)
    (h : d.hides s.text.getLast? c = false) :
    d.hides (s.behind before bounds).text.getLast? c = false := by
  rw [text_behind]
  exact hides_append hsafe h

theorem hides_within {before : List Char} (hsafe : isSafe before = true) (depth bounds : Nat)
    (h : d.hides s.text.getLast? c = false) :
    d.hides (s.within before depth bounds).text.getLast? c = false := by
  rw [text_within]
  exact hides_append hsafe h

/-- The step is the same in the middle of a conjunct and in parentheses. -/
structure Moves (d : Dialect) (s : Scanner) (c : Char) (s' : Scanner) : Prop where
  text_eq : s'.text = s.text ++ [c]
  behind {before : List Char} (h : isSafe before = true) (bounds : Nat) :
    (s.behind before bounds).step d c = some ([], s'.behind before bounds)
  within {before : List Char} (h : isSafe before = true) (depth bounds : Nat) :
    (s.within before depth bounds).step d c = some ([], s'.within before depth bounds)

theorem step_of_separate (hquotes : s.quotes = .outside)
    (hhides : d.hides s.text.getLast? c = false) (hc : isWordChar c = false) :
    s.step d c = s.separate d c := by
  simp [step, hquotes, hhides, hc]

theorem step_of_isWordChar (hquotes : s.quotes = .outside)
    (hhides : d.hides s.text.getLast? c = false) (hc : isWordChar c = true) :
    s.step d c = some ([], s.extend c) := by
  simp [step, hquotes, hhides, hc]

theorem step_of_quotes (hquotes : s.quotes ≠ .outside) :
    s.step d c = some ([], { s.push c with quotes := s.quotes.next d c }) := by
  unfold step
  split
  next houtside => exact absurd houtside hquotes
  next => rfl

theorem moves_extend (hquotes : s.quotes = .outside) (hhides : d.hides s.text.getLast? c = false)
    (hc : isWordChar c = true) : Moves d s c (s.extend c) where
  text_eq := by
    unfold extend
    split
    next => simp [text]
    next => exact text_push s c
  behind {before} hsafe bounds := by
    rw [step_of_isWordChar (s := s.behind before bounds) hquotes (hides_behind hsafe bounds hhides) hc]
    unfold extend
    by_cases hdepth : s.depth = 0
    · simp [Scanner.behind, hdepth]
    · simp [Scanner.behind, hdepth, push, text]
  within {before} hsafe depth bounds := by
    rw [step_of_isWordChar (s := s.within before depth bounds) hquotes
      (hides_within hsafe depth bounds hhides) hc]
    unfold extend
    by_cases hdepth : s.depth = 0
    · simp [Scanner.within, hdepth, push, text]
    · simp [Scanner.within, hdepth, push, text]

theorem moves_separate (hquotes : s.quotes = .outside) (hhides : d.hides s.text.getLast? c = false)
    (hc : isWordChar c = false) (h : s.separate d c = some ([], s')) : Moves d s c s' := by
  unfold separate at h
  split at h
  next => cases h
  next found ended hword =>
      split at h
      next hfound =>
          cases h
          cases hfound
      next =>
          obtain ⟨marked, hmark, heq⟩ := Option.map_eq_some_iff.mp h
          cases heq
          obtain ⟨⟨bounds', rfl⟩, hbehindWord⟩ := endWord_eq_some hword
          obtain ⟨htext, -, hbehind, hwithin⟩ := mark_eq_some hmark
          refine ⟨htext, fun {before} hsafe bounds => ?_, fun {before} hsafe depth bounds => ?_⟩
          · rw [step_of_separate (s := s.behind before bounds) hquotes
              (hides_behind hsafe bounds hhides) hc, separate, hbehindWord]
            simp [hbehind]
          · have hinert : (s.within before depth bounds).endWord =
                some ([], s.within before depth bounds) := by
              simp [endWord, Scanner.within, connective?_nil]
            rw [step_of_separate (s := s.within before depth bounds) hquotes
              (hides_within hsafe depth bounds hhides) hc, separate, hinert]
            have hmarked := hwithin before depth bounds
            change (s.within before depth bounds).mark d c = _ at hmarked
            simp [hmarked]

theorem moves_of_step (h : s.step d c = some ([], s')) : Moves d s c s' := by
  by_cases hquotes : s.quotes = .outside
  · cases hhides : d.hides s.text.getLast? c with
    | true => simp [step, hquotes, hhides] at h
    | false =>
        cases hc : isWordChar c with
        | true =>
            rw [step_of_isWordChar hquotes hhides hc] at h
            cases h
            exact moves_extend hquotes hhides hc
        | false =>
            rw [step_of_separate hquotes hhides hc] at h
            exact moves_separate hquotes hhides hc h
  · rw [step_of_quotes hquotes] at h
    cases h
    refine ⟨text_push s c, fun {before} _ bounds => ?_, fun {before} _ depth bounds => ?_⟩
    · rw [step_of_quotes (s := s.behind before bounds) hquotes]
      simp [Scanner.behind, push, text]
    · rw [step_of_quotes (s := s.within before depth bounds) hquotes]
      simp [Scanner.within, push, text]

theorem read_cons_eq_some {rest : List Char} (h : s.read d (c :: rest) = some ([], s')) :
    ∃ next, s.step d c = some ([], next) ∧ next.read d rest = some ([], s') := by
  rw [read] at h
  split at h
  next => cases h
  next found next hstep =>
      obtain ⟨⟨others, last⟩, hread, heq⟩ := Option.map_eq_some_iff.mp h
      obtain ⟨hnone, rfl⟩ := Prod.mk.inj heq
      obtain ⟨rfl, rfl⟩ := List.append_eq_nil_iff.mp hnone
      exact ⟨next, hstep, hread⟩

theorem text_of_read (h : s.read d text = some ([], s')) : s'.text = s.text ++ text := by
  induction text generalizing s with
  | nil =>
      cases h
      exact (List.append_nil _).symm
  | cons c rest ih =>
      obtain ⟨next, hstep, hread⟩ := read_cons_eq_some h
      rw [ih hread, (moves_of_step hstep).text_eq, List.append_assoc, List.singleton_append]

theorem read_behind {before : List Char} (hsafe : isSafe before = true) (bounds : Nat)
    (h : s.read d text = some ([], s')) :
    (s.behind before bounds).read d text = some ([], s'.behind before bounds) := by
  induction text generalizing s with
  | nil =>
      cases h
      rfl
  | cons c rest ih =>
      obtain ⟨next, hstep, hread⟩ := read_cons_eq_some h
      rw [read_of_step ((moves_of_step hstep).behind hsafe bounds), ih hread]

theorem read_within {before : List Char} (hsafe : isSafe before = true) (depth bounds : Nat)
    (h : s.read d text = some ([], s')) :
    (s.within before depth bounds).read d text = some ([], s'.within before depth bounds) := by
  induction text generalizing s with
  | nil =>
      cases h
      rfl
  | cons c rest ih =>
      obtain ⟨next, hstep, hread⟩ := read_cons_eq_some h
      rw [read_of_step ((moves_of_step hstep).within hsafe depth bounds), ih hread]

end Scanner

namespace Dialect

variable {d : Dialect} {a b : String}

theorem conjuncts?_and {found : List String} (h : d.conjuncts? a = some found) (b : String) :
    d.conjuncts? (a ++ " AND " ++ b) = (d.conjuncts? b).map fun more => found ++ more := by
  unfold conjuncts? at h ⊢
  cases hread : Scanner.start.read d a.toList with
  | none =>
      rw [hread] at h
      cases h
  | some outcome =>
      obtain ⟨ended, s⟩ := outcome
      rw [hread] at h
      obtain ⟨last, hlast, rfl⟩ := Option.map_eq_some_iff.mp h
      rw [String.toList_append, String.toList_append, Scanner.read_append, Scanner.read_append,
        hread, Option.bind_some]
      dsimp only
      rw [Scanner.read_and hlast]
      simp only [Option.map_some, Option.bind_some]
      cases Scanner.start.read d b.toList with
      | none => rfl
      | some outcome => simp [Function.comp_def]

end Dialect

end RecordMapper
