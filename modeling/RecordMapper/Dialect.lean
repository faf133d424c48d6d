import RecordMapper.Keyword

/-!
# Dialects

The four SQL dialects, their names, and what each of them can say.
-/

namespace RecordMapper

inductive Dialect
  | generic
  | sqlite
  | postgresql
  | mysql
  deriving DecidableEq

inductive StatementKind
  | select
  | insert
  | update
  | delete
  deriving DecidableEq

/-- A word that may follow the first word of a statement. -/
inductive Modifier
  | lowPriority
  | delayed
  | highPriority
  | quick
  | ignore
  deriving DecidableEq

namespace Modifier

def text : Modifier → String
  | lowPriority => "LOW_PRIORITY"
  | delayed => "DELAYED"
  | highPriority => "HIGH_PRIORITY"
  | quick => "QUICK"
  | ignore => "IGNORE"

def all : List Modifier :=
  [lowPriority, delayed, highPriority, quick, ignore]

def ofText? (text : String) : Option Modifier :=
  all.find? fun modifier => modifier.text == text

end Modifier

namespace Dialect

def name : Dialect → String
  | generic => "generic"
  | sqlite => "sqlite"
  | postgresql => "postgresql"
  | mysql => "mysql"

def all : List Dialect :=
  [generic, sqlite, postgresql, mysql]

def ofName? (name : String) : Option Dialect :=
  all.find? fun dialect => dialect.name == name

def aliases : List (String × Dialect) :=
  [("generic", generic), ("ansi", generic), ("sqlite", sqlite), ("postgresql", postgresql),
    ("postgres", postgresql), ("pg", postgresql), ("mysql", mysql), ("mariadb", mysql)]

/-- The dialect known under a name, in capital or small ASCII letters. -/
def parse? (name : String) : Option Dialect :=
  aliases.lookup name.toLower

/-! ## Abilities -/

def quoteChar : Dialect → Char
  | mysql => '\x60'
  | _ => '"'

def supportsArrays : Dialect → Bool
  | postgresql => true
  | _ => false

def supportsReturning : Dialect → Bool
  | sqlite | postgresql => true
  | _ => false

/-- The word after a column that numbers its rows, where one is needed. -/
def autoIncrement? : Dialect → Option String
  | mysql => some "AUTO_INCREMENT"
  | _ => none

def escapesBackslash : Dialect → Bool
  | mysql => true
  | _ => false

/-- The modifiers of each kind of statement; only one dialect has any. -/
def supportsModifier : Dialect → StatementKind → Modifier → Bool
  | mysql, .select, modifier => modifier == .highPriority
  | mysql, .insert, modifier => modifier != .quick
  | mysql, .update, modifier => modifier == .lowPriority || modifier == .ignore
  | mysql, .delete, modifier =>
      modifier == .lowPriority || modifier == .quick || modifier == .ignore
  | _, _, _ => false

end Dialect

end RecordMapper
