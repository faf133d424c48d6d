import RecordMapper.Keyword

/-!
# Operators

Each operator has a symbol, by which it is written in conditions, and a number of operands.
Functions are operators with a name of their own.
-/

namespace RecordMapper

inductive Arity
  | exact (n : Nat)
  | atLeast (n : Nat)
  | between (low high : Nat)
  deriving DecidableEq

namespace Arity

def accepts : Arity → Nat → Bool
  | exact n, count => count == n
  | atLeast n, count => n ≤ count
  | between low high, count => low ≤ count && count ≤ high

def text : Arity → String
  | exact n => toString n
  | atLeast n => "at least " ++ toString n
  | between low high => toString low ++ " to " ++ toString high

end Arity

/-- An operator of a condition.  The name of a function is kept in capital letters. -/
inductive Operator
  | eq
  | ne
  | lt
  | le
  | gt
  | ge
  | like
  | notLike
  | is
  | isNot
  | add
  | sub
  | mul
  | div
  | and
  | or
  | not
  | between
  | notBetween
  | in
  | notIn
  | any
  | exists
  | notExists
  | distinct
  | as
  | function (name : String)
  deriving DecidableEq

namespace Operator

/-- The symbols that are not function calls.  The first symbol of an operator is the one written. -/
def symbols : List (String × Operator) :=
  [("=", .eq), ("<>", .ne), ("!=", .ne), ("<", .lt), ("<=", .le), (">", .gt), (">=", .ge),
    ("+", .add), ("-", .sub), ("*", .mul), ("/", .div),
    (":like", .like), (":not like", .notLike), (":is", .is), (":is not", .isNot),
    (":and", .and), (":or", .or), (":not", .not),
    (":between", .between), (":not between", .notBetween), (":in", .in), (":not in", .notIn),
    (":any", .any), (":exists", .exists), (":not exists", .notExists),
    (":distinct", .distinct), (":as", .as)]

def isNameChar (c : Char) : Bool :=
  c.isAlphanum || c == '_'

/-- The name in a call such as `:count()`. -/
def calledName? (symbol : List Char) : Option (List Char) :=
  match symbol with
  | ':' :: rest =>
      match rest.reverse with
      | ')' :: '(' :: name =>
          if !name.isEmpty && name.all isNameChar then some name.reverse else none
      | _ => none
  | _ => none

def parse? (symbol : String) : Option Operator :=
  match symbols.lookup symbol with
  | some op => some op
  | none =>
      (calledName? symbol.toList).map fun name =>
        .function (String.ofList (name.map Char.toUpper))

def symbol : Operator → String
  | .eq => "="
  | .ne => "<>"
  | .lt => "<"
  | .le => "<="
  | .gt => ">"
  | .ge => ">="
  | .like => ":like"
  | .notLike => ":not like"
  | .is => ":is"
  | .isNot => ":is not"
  | .add => "+"
  | .sub => "-"
  | .mul => "*"
  | .div => "/"
  | .and => ":and"
  | .or => ":or"
  | .not => ":not"
  | .between => ":between"
  | .notBetween => ":not between"
  | .in => ":in"
  | .notIn => ":not in"
  | .any => ":any"
  | .exists => ":exists"
  | .notExists => ":not exists"
  | .distinct => ":distinct"
  | .as => ":as"
  | .function name => ":" ++ String.ofList (name.toList.map Char.toLower) ++ "()"

def arity : Operator → Arity
  | .and | .or | .function _ => .atLeast 0
  | .not | .exists | .notExists => .exact 1
  | .any => .between 1 2
  | .distinct => .atLeast 1
  | _ => .exact 2

/-- The keyword between the two operands of an operator that is written between them. -/
def infixKeyword? : Operator → Option Keyword
  | .eq => some .eq
  | .ne => some .ne
  | .lt => some .lt
  | .le => some .le
  | .gt => some .gt
  | .ge => some .ge
  | .add => some .plus
  | .sub => some .minus
  | .mul => some .times
  | .div => some .slash
  | .like => some .like
  | .notLike => some .notLike
  | .is => some .is
  | .isNot => some .isNot
  | _ => none

/-- Whether an operator joins any number of conditions. -/
def isConjunction : Operator → Bool
  | .and | .or => true
  | _ => false

end Operator

end RecordMapper
