import RecordMapper.Error
import RecordMapper.Text.SnakeCase

/-!
# Naming rules

Names that a schema leaves open follow from the names of models and fields by rules.  Rules can be
added and replaced.
-/

namespace RecordMapper

def singular (name : String) : String :=
  let snake := (Text.snakeCase name).toList
  match snake.reverse with
  | 's' :: 'e' :: 'i' :: stem => String.ofList (stem.reverse ++ ['y'])
  | 's' :: 's' :: _ => String.ofList snake
  | 's' :: last :: stem => String.ofList (last :: stem).reverse
  | _ => String.ofList snake

/-- A template with a subject in place of every `\x7b\x7d`. -/
def fillChars (subject : List Char) : List Char → List Char
  | '\x7b' :: '\x7d' :: rest => subject ++ fillChars subject rest
  | c :: rest => c :: fillChars subject rest
  | [] => []

def fillTemplate (template subject : String) : String :=
  String.ofList (fillChars subject.toList template.toList)

/-- Naming rules by name; of two rules with one name the first counts. -/
structure Naming where
  rules : List (String × (String → String))

namespace Naming

def primaryKeyRule : String := "primaryKey"
def foreignKeyRule : String := "foreignKey"
def sourceRule : String := "source"
def fieldNameRule : String := "fieldName"
def usingNameRule : String := "usingName"

/-- Keys are called `id`, foreign keys end in `_id`, and all names are in snake case. -/
def standard : Naming :=
  ⟨[(primaryKeyRule, fun _ => "id"),
    (foreignKeyRule, fun model => Text.snakeCase model ++ "_id"),
    (sourceRule, Text.snakeCase),
    (fieldNameRule, Text.snakeCase),
    (usingNameRule, singular)]⟩

instance : Inhabited Naming := ⟨standard⟩

def withRule (naming : Naming) (name : String) (rule : String → String) : Naming :=
  ⟨(name, rule) :: naming.rules⟩

def apply (naming : Naming) (rule subject : String) : Attempt String :=
  match naming.rules.lookup rule with
  | some form => .ok (form subject)
  | none => .error (.ruleUnknown rule)

def primaryKey (naming : Naming) (model : String) : Attempt String :=
  naming.apply primaryKeyRule model

def foreignKey (naming : Naming) (model : String) : Attempt String :=
  naming.apply foreignKeyRule model

def source (naming : Naming) (model : String) : Attempt String :=
  naming.apply sourceRule model

def fieldName (naming : Naming) (model : String) : Attempt String :=
  naming.apply fieldNameRule model

def usingName (naming : Naming) (field : String) : Attempt String :=
  naming.apply usingNameRule field

end Naming

end RecordMapper
