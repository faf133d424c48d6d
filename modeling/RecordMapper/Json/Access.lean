import RecordMapper.Json

/-!
# Taking documents apart

Readers of documents in any monad that can refuse one.  A reader refuses a document of another
shape.
-/

namespace RecordMapper.Json

/-- Monads in which a document can be refused. -/
class Refusing (m : Type → Type) where
  refuse : {α : Type} → m α

export Refusing (refuse)

instance : Refusing Option := ⟨none⟩

variable {m : Type → Type} [Monad m] [Refusing m] {α β : Type}

def orRefuse : Option α → m α
  | some a => pure a
  | none => refuse

def truth : Json → m Bool
  | bool b => pure b
  | _ => refuse

def text : Json → m String
  | string s => pure s
  | _ => refuse

/-- A whole number from zero up to a bound that it does not reach. -/
def wholeBelow (bound : Nat) : Json → m Nat
  | integer n => if 0 ≤ n ∧ n < bound then pure n.toNat else refuse
  | _ => refuse

def byte (json : Json) : m UInt8 :=
  UInt8.ofNat <$> wholeBelow UInt8.size json

def word32 (json : Json) : m UInt32 :=
  UInt32.ofNat <$> wholeBelow UInt32.size json

def word64 (json : Json) : m UInt64 :=
  UInt64.ofNat <$> wholeBelow UInt64.size json

def list (read : Json → m α) : Json → m (List α)
  | array items => items.mapM read
  | _ => refuse

def pair (first : Json → m α) (second : Json → m β) : Json → m (α × β)
  | array [a, b] => do return (← first a, ← second b)
  | _ => refuse

def need (read : Json → m α) (json : Json) (name : String) : m α := do
  read (← orRefuse (json.member? name))

def maybe (read : Json → m α) (json : Json) (name : String) : m (Option α) :=
  match json.member? name with
  | none | some .null => pure none
  | some found => some <$> read found

/-- A list that may be missing or null, and is empty then. -/
def listAt (read : Json → m α) (json : Json) (name : String) : m (List α) := do
  return (← maybe (list read) json name).getD []

def holds (json : Json) (name : String) : Bool :=
  match json.member? name with
  | some (bool b) => b
  | _ => false

end RecordMapper.Json
