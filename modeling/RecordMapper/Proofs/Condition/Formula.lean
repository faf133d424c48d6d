import Mathlib.Data.List.Forall2
import RecordMapper.Proofs.Dialect.Lexemes

/-!
# Formulas

A reader takes lexemes as a formula over atoms: `NOT` binds closer than `AND`, and `AND` closer than
`OR`.  An atom is what stands between these words; parentheses inside an atom belong to it, and so
does the `AND` after `BETWEEN`.  An atom is known by its text.
-/

namespace RecordMapper

inductive Formula
  | atom (text : String)
  | not (operand : Formula)
  | and (operands : List Formula)
  | or (operands : List Formula)

namespace Formula

def allOf : List Formula → Formula
  | [operand] => operand
  | operands => and operands

def anyOf : List Formula → Formula
  | [operand] => operand
  | operands => or operands

def negated : Nat → Formula → Formula
  | 0, formula => formula
  | count + 1, formula => negated count (not formula)

end Formula

/-- What a reader has found between two parentheses, or in the whole text. -/
structure Group where
  /-- The conjunctions that `OR` has ended. -/
  alternatives : List Formula
  /-- The operands of the present conjunction. -/
  operands : List Formula
  /-- How often the next operand is negated. -/
  negations : Nat

namespace Group

def empty : Group :=
  ⟨[], [], 0⟩

def negate (group : Group) : Group :=
  { group with negations := group.negations + 1 }

def add (group : Group) (formula : Formula) : Group :=
  { group with
    operands := group.operands ++ [formula.negated group.negations]
    negations := 0 }

def endConjunction (group : Group) : Group :=
  { group with
    alternatives := group.alternatives ++ [.allOf group.operands]
    operands := [] }

def formula (group : Group) : Formula :=
  .anyOf (group.alternatives ++ [.allOf group.operands])

end Group

inductive Phase
  /-- Before an operand. -/
  | before
  /-- In an atom: its text, whether a blank follows, the open parentheses, and how many bounds are
  still to be joined by `AND`. -/
  | atom (text : String) (gap : Bool) (depth bounds : Nat)
  /-- After an operand. -/
  | after

structure Reader where
  phase : Phase
  group : Group
  outer : List Group

namespace Reader

def start : Reader :=
  ⟨.before, .empty, []⟩

def stepBefore (reader : Reader) : Lexeme → Option Reader
  | .blank => some reader
  | .opening => some ⟨.before, .empty, reader.group :: reader.outer⟩
  | .word text =>
      if text = Keyword.not.text then some { reader with group := reader.group.negate }
      else some { reader with phase := .atom text false 0 0 }
  | .closing => none

def stepAfter (reader : Reader) : Lexeme → Option Reader
  | .blank => some reader
  | .word text =>
      if text = Keyword.and.text then some { reader with phase := .before }
      else if text = Keyword.or.text then
        some { reader with phase := .before, group := reader.group.endConjunction }
      else none
  | .closing =>
      match reader.outer with
      | group :: outer => some ⟨.after, group.add reader.group.formula, outer⟩
      | [] => none
  | .opening => none

def endAtom (reader : Reader) (text : String) : Reader :=
  { reader with phase := .after, group := reader.group.add (.atom text) }

/-- The text of an atom with one more piece. -/
def extend (text : String) (gap : Bool) (piece : String) : String :=
  if gap then text ++ " " ++ piece else text ++ piece

def boundsAfter (bounds : Nat) (word : String) : Nat :=
  if word = Keyword.between.text then bounds + 1
  else if word = Keyword.and.text then bounds - 1
  else bounds

def stepAtom (reader : Reader) (text : String) (gap : Bool) (depth bounds : Nat) :
    Lexeme → Option Reader
  | .blank => some { reader with phase := .atom text true depth bounds }
  | .opening => some { reader with phase := .atom (extend text gap "(") false (depth + 1) bounds }
  | .closing =>
      match depth with
      | 0 => (reader.endAtom text).stepAfter .closing
      | depth + 1 => some { reader with phase := .atom (extend text gap ")") false depth bounds }
  | .word word =>
      if depth = 0 ∧ bounds = 0 ∧ (word = Keyword.and.text ∨ word = Keyword.or.text) then
        (reader.endAtom text).stepAfter (.word word)
      else
        let bounds := if depth = 0 then boundsAfter bounds word else bounds
        some { reader with phase := .atom (extend text gap word) false depth bounds }

def step (reader : Reader) (lexeme : Lexeme) : Option Reader :=
  match reader.phase with
  | .before => reader.stepBefore lexeme
  | .atom text gap depth bounds => reader.stepAtom text gap depth bounds lexeme
  | .after => reader.stepAfter lexeme

/-- The formula of a whole text.  It must not end before an operand, in parentheses or in the middle
of an atom. -/
def finish (reader : Reader) : Option Formula :=
  match reader.phase, reader.outer with
  | .after, [] => some reader.group.formula
  | .atom text _ 0 0, [] => some (reader.endAtom text).group.formula
  | _, _ => none

/-- The formula of the lexemes that are still to be read. -/
def read (reader : Reader) : List Lexeme → Option Formula
  | [] => reader.finish
  | lexeme :: rest => (reader.step lexeme).bind fun reader => reader.read rest

end Reader

/-- The formula of a text in a dialect; a text without content has none. -/
def Dialect.readFormula (d : Dialect) (sql : String) : Option (Option Formula) :=
  match d.lexemes .outside [] sql.toList with
  | [] => some none
  | lexemes => (Reader.start.read lexemes).map some

namespace Reader

/-! ## Operands -/

/-- An operand ends at the end, at a closing parenthesis and at a word that joins. -/
inductive Ends : List Lexeme → Prop
  | atEnd : Ends []
  | closing (rest : List Lexeme) : Ends (.closing :: rest)
  | and (rest : List Lexeme) : Ends (.blank :: .word Keyword.and.text :: rest)
  | or (rest : List Lexeme) : Ends (.blank :: .word Keyword.or.text :: rest)

def IsOperand (parts : List Lexeme) (formula : Formula) : Prop :=
  ∀ group outer rest, Ends rest →
    (Reader.mk .before group outer).read (parts ++ rest) =
      (Reader.mk .after (group.add formula) outer).read rest

/-- A group ends at the end and at a closing parenthesis. -/
inductive Closes : List Lexeme → Prop
  | atEnd : Closes []
  | closing (rest : List Lexeme) : Closes (.closing :: rest)

theorem ends_of_closes {rest : List Lexeme} (h : Closes rest) : Ends rest := by
  cases h with
  | atEnd => exact .atEnd
  | closing rest => exact .closing rest

def IsGroup (parts : List Lexeme) (formula : Formula) : Prop :=
  ∃ group : Group, group.formula = formula ∧ ∀ outer rest, Closes rest →
    (Reader.mk .before .empty outer).read (parts ++ rest) = (Reader.mk .after group outer).read rest

variable {parts : List Lexeme} {formula : Formula}

theorem read_atom {rest : List Lexeme} (h : Ends rest) (text : String) (group : Group)
    (outer : List Group) :
    (Reader.mk (.atom text false 0 0) group outer).read rest =
      (Reader.mk .after (group.add (.atom text)) outer).read rest := by
  cases h with
  | atEnd => cases outer <;> rfl
  | closing rest => cases outer <;> rfl
  | and rest => rfl
  | or rest => rfl

theorem isGroup_of_isOperand (h : IsOperand parts formula) : IsGroup parts formula := by
  exact ⟨Group.empty.add formula, rfl, fun outer rest hrest => h _ _ _ (ends_of_closes hrest)⟩

theorem isOperand_parenthesized (h : IsGroup parts formula) :
    IsOperand (.opening :: parts ++ [.closing]) formula := by
  obtain ⟨inner, rfl, hread⟩ := h
  intro group outer rest _
  -- the group around is put aside until the parenthesis closes
  have hopening : (Reader.mk .before group outer).read (.opening :: parts ++ [.closing] ++ rest) =
      (Reader.mk .before .empty (group :: outer)).read (parts ++ (.closing :: rest)) := by
    rw [List.append_assoc]
    rfl
  rw [hopening, hread _ _ (.closing rest)]
  rfl

theorem isOperand_not (h : IsOperand parts formula) :
    IsOperand (.word Keyword.not.text :: .blank :: parts) (.not formula) := by
  intro group outer rest hrest
  exact h group.negate outer rest hrest

/-! ## Joined operands -/

def joined (word : String) : List (List Lexeme) → List Lexeme
  | [] => []
  | [parts] => parts
  | parts :: next :: more => parts ++ .blank :: .word word :: .blank :: joined word (next :: more)

/-- A group with more operands, and a change of it between each two. -/
def addJoined (separate : Group → Group) : Group → List Formula → Group
  | group, [] => group
  | group, [formula] => group.add formula
  | group, formula :: next :: more => addJoined separate (separate (group.add formula)) (next :: more)

structure Separates (word : String) (separate : Group → Group) : Prop where
  ends : ∀ rest, Ends (.blank :: .word word :: rest)
  read : ∀ group outer rest,
    (Reader.mk .after group outer).read (.blank :: .word word :: .blank :: rest) =
      (Reader.mk .before (separate group) outer).read rest

theorem separates_and : Separates Keyword.and.text id :=
  ⟨.and, fun _ _ _ => rfl⟩

theorem separates_or : Separates Keyword.or.text Group.endConjunction :=
  ⟨.or, fun _ _ _ => rfl⟩

variable {word : String} {separate : Group → Group} {partsOf : List (List Lexeme)}
  {formulas : List Formula}

theorem read_joined (hword : Separates word separate)
    (h : List.Forall₂ IsOperand partsOf formulas) (hne : formulas ≠ []) (group : Group)
    (outer : List Group) {rest : List Lexeme} (hrest : Ends rest) :
    (Reader.mk .before group outer).read (joined word partsOf ++ rest) =
      (Reader.mk .after (addJoined separate group formulas) outer).read rest := by
  induction h generalizing group with
  | nil => exact absurd rfl hne
  | @cons parts formula others more hfirst hothers ih =>
      cases hothers with
      | nil => exact hfirst group outer rest hrest
      | @cons second _ others more hsecond hmore =>
          have hsplit : joined word (parts :: second :: others) ++ rest =
              parts ++ (.blank :: .word word :: .blank :: (joined word (second :: others) ++ rest)) := by
            rw [joined, List.append_assoc]
            rfl
          -- the word ends the operand before it, and the reader stands before the next one
          rw [hsplit, hfirst _ _ _ (hword.ends _), hword.read]
          exact ih (List.cons_ne_nil _ _) _

theorem addJoined_and (alternatives operands formulas : List Formula) :
    addJoined id ⟨alternatives, operands, 0⟩ formulas =
      ⟨alternatives, operands ++ formulas, 0⟩ := by
  induction formulas generalizing operands with
  | nil => rw [addJoined, List.append_nil]
  | cons formula more ih =>
      cases more with
      | nil => rfl
      | cons next more =>
          rw [addJoined]
          refine (ih (operands ++ [formula])).trans ?_
          rw [List.append_assoc]
          rfl

theorem formula_addJoined_or {alternatives formulas : List Formula} (hne : formulas ≠ []) :
    (addJoined Group.endConjunction ⟨alternatives, [], 0⟩ formulas).formula =
      .anyOf (alternatives ++ formulas) := by
  induction formulas generalizing alternatives with
  | nil => exact absurd rfl hne
  | cons formula more ih =>
      cases more with
      | nil => rfl
      | cons next more =>
          rw [addJoined]
          have hmore := @ih (alternatives ++ [formula]) (List.cons_ne_nil _ _)
          refine hmore.trans ?_
          rw [List.append_assoc]
          rfl

theorem isGroup_joined_and (h : List.Forall₂ IsOperand partsOf formulas) (hne : formulas ≠ []) :
    IsGroup (joined Keyword.and.text partsOf) (.allOf formulas) := by
  refine ⟨⟨[], formulas, 0⟩, rfl, fun outer rest hrest => ?_⟩
  rw [read_joined separates_and h hne _ _ (ends_of_closes hrest)]
  rw [Group.empty, addJoined_and]
  rfl

theorem isGroup_joined_or (h : List.Forall₂ IsOperand partsOf formulas) (hne : formulas ≠ []) :
    IsGroup (joined Keyword.or.text partsOf) (.anyOf formulas) := by
  refine ⟨addJoined Group.endConjunction .empty formulas, formula_addJoined_or hne,
    fun outer rest hrest => ?_⟩
  exact read_joined separates_or h hne _ _ (ends_of_closes hrest)

/-! ## Atoms -/

def spacedParts (words : List String) : List Lexeme :=
  words.flatMap fun word => [.blank, .word word]

def spaced (text : String) (words : List String) : String :=
  words.foldl (fun text word => text ++ " " ++ word) text

theorem spaced_append (first text : String) (words : List String) :
    spaced (first ++ text) words = first ++ spaced text words := by
  induction words generalizing text with
  | nil => rfl
  | cons word words ih =>
      have hfirst : first ++ text ++ " " ++ word = first ++ (text ++ " " ++ word) := by
        simp only [String.append_assoc]
      rw [spaced, List.foldl_cons, hfirst]
      exact ih _

theorem read_spaced_inside (words : List String) (text : String) (depth bounds : Nat) (group : Group)
    (outer : List Group) (rest : List Lexeme) :
    (Reader.mk (.atom text false (depth + 1) bounds) group outer).read (spacedParts words ++ rest) =
      (Reader.mk (.atom (spaced text words) false (depth + 1) bounds) group outer).read rest := by
  induction words generalizing text with
  | nil => rfl
  | cons word words ih => exact ih (text ++ " " ++ word)

theorem read_spaced {words : List String} (h : ∀ word ∈ words, Dialect.IsInert word)
    (text : String) (bounds : Nat) (group : Group) (outer : List Group) (rest : List Lexeme) :
    (Reader.mk (.atom text false 0 bounds) group outer).read (spacedParts words ++ rest) =
      (Reader.mk (.atom (spaced text words) false 0 bounds) group outer).read rest := by
  induction words generalizing text with
  | nil => rfl
  | cons word words ih =>
      obtain ⟨hand, hor, hbetween⟩ := h word List.mem_cons_self
      have hstep : (Reader.mk (.atom text false 0 bounds) group outer).read
          (spacedParts (word :: words) ++ rest) =
            (Reader.mk (.atom (text ++ " " ++ word) false 0 bounds) group outer).read
              (spacedParts words ++ rest) := by
        simp [spacedParts, read, step, stepAtom, hand, hor, hbetween, boundsAfter, extend]
      rw [hstep]
      exact ih (fun other hother => h other (List.mem_cons_of_mem word hother)) _

variable {name : String}

theorem read_name (h : name ≠ Keyword.not.text) (group : Group) (outer : List Group)
    (rest : List Lexeme) :
    (Reader.mk .before group outer).read (.word name :: rest) =
      (Reader.mk (.atom name false 0 0) group outer).read rest := by
  simp [read, step, stepBefore, h]

theorem isOperand_comparison (h : name ≠ Keyword.not.text) {words : List String}
    (hwords : ∀ word ∈ words, Dialect.IsInert word) :
    IsOperand (.word name :: spacedParts words) (.atom (spaced name words)) := by
  intro group outer rest hrest
  rw [List.cons_append, read_name h, read_spaced hwords, read_atom hrest]

theorem isOperand_between (h : name ≠ Keyword.not.text) {words : List String} {low high : String}
    (hwords : ∀ word ∈ words, Dialect.IsInert word) (hlow : Dialect.IsInert low)
    (hhigh : Dialect.IsInert high) :
    IsOperand (.word name :: spacedParts
        (words ++ [Keyword.between.text, low, Keyword.and.text, high]))
      (.atom (spaced name (words ++ [Keyword.between.text, low, Keyword.and.text, high]))) := by
  intro group outer rest hrest
  have hsplit : spacedParts (words ++ [Keyword.between.text, low, Keyword.and.text, high]) ++ rest =
      spacedParts words ++ (.blank :: .word Keyword.between.text ::
        (spacedParts [low] ++ (.blank :: .word Keyword.and.text ::
          (spacedParts [high] ++ rest)))) := by
    simp [spacedParts]
  -- `BETWEEN` leaves one bound to be joined, so that the next `AND` does not end the atom
  have hbetween : ∀ text rest,
      (Reader.mk (.atom text false 0 0) group outer).read
        (.blank :: .word Keyword.between.text :: rest) =
      (Reader.mk (.atom (text ++ " " ++ Keyword.between.text) false 0 1) group outer).read rest :=
    fun _ _ => rfl
  have hand : ∀ text rest,
      (Reader.mk (.atom text false 0 1) group outer).read (.blank :: .word Keyword.and.text :: rest) =
      (Reader.mk (.atom (text ++ " " ++ Keyword.and.text) false 0 0) group outer).read rest :=
    fun _ _ => rfl
  rw [List.cons_append, read_name h, hsplit, read_spaced hwords, hbetween,
    read_spaced (by simpa using hlow), hand, read_spaced (by simpa using hhigh), read_atom hrest]
  simp only [spaced, List.foldl_append]
  rfl

theorem isOperand_member (h : name ≠ Keyword.not.text) {words : List String}
    (hwords : ∀ word ∈ words, Dialect.IsInert word) (first : String) (items : List String) :
    IsOperand (.word name :: spacedParts words ++ .blank ::
        (.opening :: (.word first :: spacedParts items) ++ [.closing]))
      (.atom (spaced name words ++ " " ++ parenthesize (spaced first items))) := by
  intro group outer rest hrest
  have hsplit : .word name :: spacedParts words ++ .blank ::
        (.opening :: (.word first :: spacedParts items) ++ [.closing]) ++ rest =
      .word name :: (spacedParts words ++ (.blank :: .opening :: .word first ::
        (spacedParts items ++ (.closing :: rest)))) := by
    simp
  have hopening : ∀ text rest,
      (Reader.mk (.atom text false 0 0) group outer).read
        (.blank :: .opening :: .word first :: rest) =
      (Reader.mk (.atom (text ++ " " ++ "(" ++ first) false 1 0) group outer).read rest :=
    fun _ _ => rfl
  have hclosing : ∀ text, (Reader.mk (.atom text false 1 0) group outer).read (.closing :: rest) =
      (Reader.mk (.atom (text ++ ")") false 0 0) group outer).read rest :=
    fun _ => rfl
  rw [hsplit, read_name h, read_spaced hwords, hopening, read_spaced_inside, hclosing,
    read_atom hrest, spaced_append, parenthesize]
  simp only [String.append_assoc]

end Reader

end RecordMapper
