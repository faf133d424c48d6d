import RecordMapper.Proofs.Dialect.Lexemes

/-!
# Arithmetic read back

An operation is written between its operands, and no operand gets parentheses for its operation.  A
reader takes `*` and `/` before `+` and `-`, and operations of the same rank from the left.  So it
takes every text for the one expression with the same leaves and signs that needs no parentheses.
-/

namespace RecordMapper

inductive Operation
  | add
  | sub
  | mul
  | div
  deriving DecidableEq

namespace Operation

def operator : Operation → Operator
  | add => .add
  | sub => .sub
  | mul => .mul
  | div => .div

def keyword : Operation → Keyword
  | add => .plus
  | sub => .minus
  | mul => .times
  | div => .slash

def all : List Operation :=
  [add, sub, mul, div]

def ofSign? (text : String) : Option Operation :=
  all.find? fun operation => operation.keyword.text == text

/-- How closely an operation binds its operands. -/
def rank : Operation → Nat
  | add | sub => 1
  | mul | div => 2

theorem ofSign?_text (operation : Operation) :
    ofSign? operation.keyword.text = some operation := by
  cases operation <;> decide

theorem isWord_keyword (d : Dialect) (operation : Operation) :
    d.IsWord operation.keyword.text := by
  have hplain : operation.keyword.text.toList ≠ [] ∧
      operation.keyword.text.toList.all d.isPlain = true := by
    cases operation <;> cases d <;> decide
  exact Dialect.isWord_plain hplain.1 hplain.2

end Operation

/-- An expression of operations over leaves. -/
inductive Arithmetic (α : Type)
  | leaf (content : α)
  | node (operation : Operation) (left right : Arithmetic α)

namespace Arithmetic

variable {α β : Type}

def map (f : α → β) : Arithmetic α → Arithmetic β
  | leaf content => leaf (f content)
  | node operation left right => node operation (left.map f) (right.map f)

/-- The first leaf, and those after it with the operations before them. -/
def inOrder : Arithmetic α → α × List (Operation × α)
  | leaf content => (content, [])
  | node operation left right =>
      (left.inOrder.1, left.inOrder.2 ++ (operation, right.inOrder.1) :: right.inOrder.2)

/-- How closely the outermost operation binds.  A leaf binds closest. -/
def rank : Arithmetic α → Nat
  | leaf _ => 3
  | node operation _ _ => operation.rank

/-- No operand needs parentheses: the left ones bind as closely as the operation, and the right ones
closer. -/
def Grouped : Arithmetic α → Prop
  | leaf _ => True
  | node operation left right =>
      operation.rank ≤ left.rank ∧ operation.rank < right.rank ∧ left.Grouped ∧ right.Grouped

instance decidableGrouped : (tree : Arithmetic α) → Decidable tree.Grouped
  | leaf _ => .isTrue trivial
  | node operation left right =>
      have := decidableGrouped left
      have := decidableGrouped right
      inferInstanceAs (Decidable (operation.rank ≤ left.rank ∧ operation.rank < right.rank ∧
        left.Grouped ∧ right.Grouped))

theorem rank_map (f : α → β) (tree : Arithmetic α) : (tree.map f).rank = tree.rank := by
  cases tree <;> rfl

theorem grouped_map (f : α → β) (tree : Arithmetic α) : (tree.map f).Grouped ↔ tree.Grouped := by
  induction tree with
  | leaf content => rfl
  | node operation left right ihLeft ihRight =>
      rw [map, Grouped, Grouped, rank_map, rank_map, ihLeft, ihRight]

/-! ## Taking leaves in order -/

/-- Operations with their left operands, the last one first.  They wait for their right ones. -/
abbrev Pending (α : Type) := List (Operation × Arithmetic α)

/-- Ends the operations that bind at least as closely as a rank: what has been read is their right
operand. -/
def settle (rank : Nat) : Pending α → Arithmetic α → Pending α × Arithmetic α
  | [], operand => ([], operand)
  | (operation, left) :: rest, operand =>
      if rank ≤ operation.rank then settle rank rest (node operation left operand)
      else ((operation, left) :: rest, operand)

def close : Pending α → Arithmetic α → Arithmetic α
  | [], operand => operand
  | (operation, left) :: rest, operand => close rest (node operation left operand)

def resume : Pending α → Arithmetic α → List (Operation × α) → Arithmetic α
  | pending, operand, [] => close pending operand
  | pending, operand, (operation, content) :: rest =>
      let (outer, left) := settle operation.rank pending operand
      resume ((operation, left) :: outer) (leaf content) rest

def regroup (text : α × List (Operation × α)) : Arithmetic α :=
  resume [] (leaf text.1) text.2

variable {pending : Pending α} {operand tree : Arithmetic α}

theorem close_settle (rank : Nat) (pending : Pending α) (operand : Arithmetic α) :
    close (settle rank pending operand).1 (settle rank pending operand).2 =
      close pending operand := by
  induction pending generalizing operand with
  | nil => rfl
  | cons first rest ih =>
      rw [settle]
      split
      next => exact ih (node first.1 first.2 operand)
      next => rfl

theorem inOrder_close_congr {other : Arithmetic α} (h : operand.inOrder = other.inOrder) :
    (close pending operand).inOrder = (close pending other).inOrder := by
  induction pending generalizing operand other with
  | nil => exact h
  | cons first rest ih => exact ih (by rw [inOrder, inOrder, h])

theorem inOrder_close_node (operation : Operation) (content : α) (pending : Pending α)
    (operand : Arithmetic α) :
    (close pending (node operation operand (leaf content))).inOrder =
      ((close pending operand).inOrder.1,
        (close pending operand).inOrder.2 ++ [(operation, content)]) := by
  induction pending generalizing operand with
  | nil => rfl
  | cons first rest ih =>
      have hassoc : (node first.1 first.2 (node operation operand (leaf content))).inOrder =
          (node operation (node first.1 first.2 operand) (leaf content)).inOrder := by
        simp [inOrder]
      exact (inOrder_close_congr hassoc).trans (ih (node first.1 first.2 operand))

theorem inOrder_resume (steps : List (Operation × α)) (pending : Pending α)
    (operand : Arithmetic α) :
    (resume pending operand steps).inOrder =
      ((close pending operand).inOrder.1, (close pending operand).inOrder.2 ++ steps) := by
  induction steps generalizing pending operand with
  | nil => simp [resume]
  | cons first rest ih =>
      obtain ⟨operation, content⟩ := first
      have hsettled := close_settle operation.rank pending operand
      rw [resume, ih, close, inOrder_close_node, hsettled, List.append_assoc]
      rfl

/-- The pending operations nest without parentheses around an operand of a rank. -/
def Fits : Pending α → Nat → Prop
  | [], _ => True
  | (operation, left) :: rest, rank =>
      operation.rank < rank ∧ operation.rank ≤ left.rank ∧ left.Grouped ∧ Fits rest operation.rank

theorem Fits.mono {rank other : Nat} (h : Fits pending rank) (hle : rank ≤ other) :
    Fits pending other := by
  cases pending with
  | nil => trivial
  | cons first rest => exact ⟨Nat.lt_of_lt_of_le h.1 hle, h.2⟩

theorem grouped_close (hpending : Fits pending operand.rank) (hoperand : operand.Grouped) :
    (close pending operand).Grouped := by
  induction pending generalizing operand with
  | nil => exact hoperand
  | cons first rest ih =>
      obtain ⟨hbinds, hleft, hgrouped, hrest⟩ := hpending
      exact ih hrest ⟨hleft, hbinds, hgrouped, hoperand⟩

/-- What is left after settling binds less than the rank, and what is settled binds at least so. -/
theorem fits_settle {rank : Nat} (hpending : Fits pending operand.rank) (hoperand : operand.Grouped)
    (hrank : rank ≤ operand.rank) :
    Fits (settle rank pending operand).1 rank ∧ rank ≤ (settle rank pending operand).2.rank ∧
      (settle rank pending operand).2.Grouped := by
  induction pending generalizing operand with
  | nil => exact ⟨trivial, hrank, hoperand⟩
  | cons first rest ih =>
      obtain ⟨hbinds, hleft, hgrouped, hrest⟩ := hpending
      rw [settle]
      split
      next hle => exact ih hrest ⟨hleft, hbinds, hgrouped, hoperand⟩ hle
      next hlt => exact ⟨⟨Nat.lt_of_not_le hlt, hleft, hgrouped, hrest⟩, hrank, hoperand⟩

theorem rank_lt_leaf (operation : Operation) (content : α) :
    operation.rank < (leaf content).rank := by
  cases operation <;> simp [rank, Operation.rank]

theorem grouped_resume {content : α} (steps : List (Operation × α))
    (hpending : Fits pending (leaf content).rank) :
    (resume pending (leaf content) steps).Grouped := by
  induction steps generalizing pending content with
  | nil => exact grouped_close hpending trivial
  | cons first rest ih =>
      obtain ⟨houter, hleft, hgrouped⟩ :=
        fits_settle hpending trivial (Nat.le_of_lt (rank_lt_leaf first.1 content))
      exact ih ⟨rank_lt_leaf first.1 first.2, hleft, hgrouped, houter⟩

theorem settle_of_fits {rank : Nat} (hpending : Fits pending rank) (operand : Arithmetic α) :
    settle rank pending operand = (pending, operand) := by
  cases pending with
  | nil => rfl
  | cons first rest => rw [settle, if_neg (Nat.not_le_of_lt hpending.1)]

/-- An expression that needs no parentheses is read as one operand, as far as what comes after it
does not bind closer. -/
theorem resume_inOrder (htree : tree.Grouped) (hpending : Fits pending tree.rank)
    {steps : List (Operation × α)} (hsteps : ∀ step ∈ steps.head?, step.1.rank ≤ tree.rank) :
    resume pending (leaf tree.inOrder.1) (tree.inOrder.2 ++ steps) = resume pending tree steps := by
  induction tree generalizing pending steps with
  | leaf content => rfl
  | node operation left right ihLeft ihRight =>
      obtain ⟨hleftRank, hrightRank, hleft, hright⟩ := htree
      have houter : Fits pending operation.rank := hpending
      have hwaits : Fits ((operation, left) :: pending) right.rank :=
        ⟨hrightRank, hleftRank, hleft, houter⟩
      rw [inOrder, List.append_assoc, List.cons_append,
        ihLeft hleft (houter.mono hleftRank) (by simpa using hleftRank), resume,
        settle_of_fits houter]
      -- the operation waits for its right operand, and gets it with the next one or at the end
      refine (ihRight hright hwaits fun step hstep =>
        Nat.le_of_lt (Nat.lt_of_le_of_lt (hsteps step hstep) hrightRank)).trans ?_
      cases steps with
      | nil => rfl
      | cons step steps =>
          have hstep : step.1.rank ≤ operation.rank := hsteps step rfl
          rw [resume, resume, settle, if_pos hstep]

theorem inOrder_regroup (text : α × List (Operation × α)) : (regroup text).inOrder = text :=
  inOrder_resume text.2 [] (leaf text.1)

theorem grouped_regroup (text : α × List (Operation × α)) : (regroup text).Grouped :=
  grouped_resume text.2 trivial

theorem regroup_inOrder (h : tree.Grouped) : regroup tree.inOrder = tree := by
  have hempty : Fits ([] : Pending α) tree.rank := trivial
  have hread : resume [] (leaf tree.inOrder.1) (tree.inOrder.2 ++ []) = resume [] tree [] :=
    resume_inOrder h hempty nofun
  rwa [List.append_nil] at hread

theorem regroup_inOrder_eq_self_iff : regroup tree.inOrder = tree ↔ tree.Grouped := by
  refine ⟨fun h => ?_, regroup_inOrder⟩
  rw [← h]
  exact grouped_regroup tree.inOrder

end Arithmetic

/-! ## Reading texts -/

/-- What a reader has found: the last operand, unless one is to come, and the operations that wait,
between the present parentheses and around them. -/
structure ArithmeticReader where
  operand? : Option (Arithmetic String)
  pending : Arithmetic.Pending String
  outer : List (Arithmetic.Pending String)

namespace ArithmeticReader

open Arithmetic (settle close resume)

def start : ArithmeticReader :=
  ⟨none, [], []⟩

def stepBefore (reader : ArithmeticReader) : Lexeme → Option ArithmeticReader
  | .blank => some reader
  | .opening => some ⟨none, [], reader.pending :: reader.outer⟩
  | .word text => some { reader with operand? := some (.leaf text) }
  | .closing => none

/-- After an operand, a word is a sign.  Parentheses make one operand of what stands in them. -/
def stepAfter (reader : ArithmeticReader) (operand : Arithmetic String) :
    Lexeme → Option ArithmeticReader
  | .blank => some reader
  | .word text =>
      (Operation.ofSign? text).map fun operation =>
        let (outer, left) := settle operation.rank reader.pending operand
        { reader with operand? := none, pending := (operation, left) :: outer }
  | .closing =>
      match reader.outer with
      | pending :: outer => some ⟨some (close reader.pending operand), pending, outer⟩
      | [] => none
  | .opening => none

def step (reader : ArithmeticReader) (lexeme : Lexeme) : Option ArithmeticReader :=
  match reader.operand? with
  | none => reader.stepBefore lexeme
  | some operand => reader.stepAfter operand lexeme

/-- The expression of a whole text.  It must not end before an operand or in parentheses. -/
def finish (reader : ArithmeticReader) : Option (Arithmetic String) :=
  match reader.operand?, reader.outer with
  | some operand, [] => some (close reader.pending operand)
  | _, _ => none

def read (reader : ArithmeticReader) : List Lexeme → Option (Arithmetic String)
  | [] => reader.finish
  | lexeme :: rest => (reader.step lexeme).bind fun reader => reader.read rest

def stepParts (steps : List (Operation × String)) : List Lexeme :=
  steps.flatMap fun (operation, text) =>
    [.blank, .word operation.keyword.text, .blank, .word text]

def parts (text : String × List (Operation × String)) : List Lexeme :=
  .word text.1 :: stepParts text.2

theorem read_stepParts (steps : List (Operation × String)) (pending : Arithmetic.Pending String)
    (operand : Arithmetic String) :
    (ArithmeticReader.mk (some operand) pending []).read (stepParts steps) =
      some (resume pending operand steps) := by
  induction steps generalizing pending operand with
  | nil => rfl
  | cons first rest ih =>
      obtain ⟨operation, text⟩ := first
      have hstep : (ArithmeticReader.mk (some operand) pending []).read
          (stepParts ((operation, text) :: rest)) =
            (ArithmeticReader.mk (some (.leaf text))
              ((operation, (settle operation.rank pending operand).2) ::
                (settle operation.rank pending operand).1) []).read (stepParts rest) := by
        simp [stepParts, read, step, stepAfter, stepBefore, Operation.ofSign?_text]
      rw [hstep, ih, resume]

theorem read_parts (text : String × List (Operation × String)) :
    start.read (parts text) = some (Arithmetic.regroup text) :=
  read_stepParts text.2 [] (.leaf text.1)

end ArithmeticReader

/-- The expression of a text in a dialect, if the text is one of arithmetic. -/
def Dialect.readArithmetic (d : Dialect) (sql : String) : Option (Arithmetic String) :=
  ArithmeticReader.start.read (d.lexemes .outside [] sql.toList)

/-! ## Conditions of arithmetic -/

/-- A field, or a value that is no array. -/
inductive Leaf
  | field (ref : FieldRef)
  | literal (v : Value) (h : v.isScalar = true)

namespace Leaf

def condition : Leaf → Condition
  | field ref => .field ref
  | literal v _ => .value v

def text (d : Dialect) : Leaf → String
  | field ref => ref.render d
  | literal v _ => d.literal v

theorem body_condition (d : Dialect) (leaf : Leaf) :
    leaf.condition.body d = .ok (leaf.text d) := by
  cases leaf <;> rfl

theorem isWord_text (d : Dialect) (leaf : Leaf) : d.IsWord (leaf.text d) := by
  cases leaf with
  | field ref => exact Dialect.isWord_field d ref
  | literal v h => exact (Dialect.isWord_literal d h).1

end Leaf

namespace Arithmetic

open ArithmeticReader (parts stepParts)

def condition : Arithmetic Leaf → Condition
  | leaf content => content.condition
  | node operation left right => .node operation.operator [left.condition, right.condition]

/-- No expression of arithmetic gets parentheses as an operand. -/
theorem asOperand_condition (d : Dialect) (tree : Arithmetic Leaf) :
    Operand.asOperand ⟨tree.condition, tree.condition.body d⟩ = tree.condition.body d := by
  have hbare : (tree.condition.isSubquery || tree.condition.joinsSeveral) = false := by
    cases tree with
    | leaf content => cases content <;> rfl
    | node operation left right => cases operation <;> rfl
  rw [Operand.asOperand, hbare]
  cases tree.condition.body d <;> rfl

theorem layout_operator (d : Dialect) (operation : Operation) (left right : Operand) :
    operation.operator.layout d [left, right] = (do
      let leftText ← left.asOperand
      return leftText ++ " " ++ operation.keyword.text ++ " " ++ (← right.asOperand)) := by
  cases operation <;> rfl

theorem parts_node (operation : Operation) (left right : Arithmetic String) :
    parts (node operation left right).inOrder =
      parts left.inOrder ++ .blank :: .word operation.keyword.text :: .blank ::
        parts right.inOrder := by
  simp [parts, stepParts, inOrder]

theorem exists_body (d : Dialect) (tree : Arithmetic Leaf) :
    ∃ text, tree.condition.body d = .ok text ∧
      d.Lexes text (parts (tree.map (Leaf.text d)).inOrder) := by
  induction tree with
  | leaf content =>
      exact ⟨content.text d, content.body_condition d, Dialect.lexes_word (content.isWord_text d)⟩
  | node operation left right ihLeft ihRight =>
      obtain ⟨leftText, hleft, hleftLexes⟩ := ihLeft
      obtain ⟨rightText, hright, hrightLexes⟩ := ihRight
      refine ⟨leftText ++ " " ++ operation.keyword.text ++ " " ++ rightText, ?_, ?_⟩
      · rw [condition, Condition.body, operandBodies, operandBodies, operandBodies, layout_operator,
          asOperand_condition, asOperand_condition, hleft, hright]
        rfl
      · have hsign := Dialect.lexes_blank hleftLexes
          (Dialect.lexes_word (operation.isWord_keyword d))
        rw [map, parts_node]
        simpa using Dialect.lexes_blank hsign hrightLexes

theorem render_condition (d : Dialect) (tree : Arithmetic Leaf) :
    tree.condition.render d = tree.condition.body d := by
  have hbare : tree.condition.isSubquery = false := by
    cases tree with
    | leaf content => cases content <;> rfl
    | node operation left right => rfl
  rw [Condition.render, Operand.standalone, hbare]
  cases tree.condition.body d <;> rfl

/-- In every dialect an expression has a text, and the text is read as the expression with the same
leaves and signs that needs no parentheses.  This is the same expression exactly if that one needs
none. -/
theorem render_reads_iff_grouped (d : Dialect) (tree : Arithmetic Leaf) :
    ∃ sql read, tree.condition.render d = .ok sql ∧ d.readArithmetic sql = some read ∧
      read.inOrder = (tree.map (Leaf.text d)).inOrder ∧ read.Grouped ∧
      (read = tree.map (Leaf.text d) ↔ tree.Grouped) := by
  obtain ⟨sql, hbody, hlexes⟩ := tree.exists_body d
  refine ⟨sql, regroup (tree.map (Leaf.text d)).inOrder, ?_, ?_, inOrder_regroup _,
    grouped_regroup _, ?_⟩
  · rw [render_condition, hbody]
  · rw [Dialect.readArithmetic, Dialect.lexemes_of_lexes hlexes, ArithmeticReader.read_parts]
  · rw [regroup_inOrder_eq_self_iff, grouped_map]

/-- A product of a sum and a field is written as a sum. -/
def productOfSum : Arithmetic Leaf :=
  .node .mul (.node .add (.leaf (.field ⟨none, "a"⟩)) (.leaf (.field ⟨none, "b"⟩)))
    (.leaf (.field ⟨none, "c"⟩))

theorem productOfSum_loses_group :
    productOfSum.condition.render .generic = .ok "\"a\" + \"b\" * \"c\"" ∧
      Dialect.readArithmetic .generic "\"a\" + \"b\" * \"c\"" =
        some (.node .add (.leaf "\"a\"") (.node .mul (.leaf "\"b\"") (.leaf "\"c\""))) ∧
      Dialect.readArithmetic .generic "(\"a\" + \"b\") * \"c\"" =
        some (productOfSum.map (Leaf.text .generic)) ∧
      ¬ productOfSum.Grouped := by
  refine ⟨by rfl, by rfl, by rfl, by decide⟩

end Arithmetic

end RecordMapper
