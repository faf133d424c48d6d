/-!
# Keywords

The words and signs of SQL that statements are put together from.
-/

namespace RecordMapper

/-- A word, a phrase or a sign of SQL. -/
inductive Keyword
  -- statements
  | select | insert | update | delete | create | drop
  -- clauses
  | from | into | values | defaultValues | set | where | groupBy | having | orderBy | limit
  | offset | forUpdate | returning | on | join | innerJoin | leftJoin | rightJoin | table
  | ifExists | ifNotExists | cascade | restrict
  -- expressions
  | as | distinct | and | or | not | between | notBetween | in | notIn | any | exists
  | notExists | like | notLike | is | isNot | null | asc | desc | star
  -- tables
  | constraint | primaryKey | unique | foreignKey | references | check | notNull | default
  | onDelete | onUpdate
  -- operators
  | eq | ne | lt | le | gt | ge | plus | minus | times | slash
  deriving DecidableEq

namespace Keyword

def text : Keyword → String
  | .select => "SELECT"
  | .insert => "INSERT"
  | .update => "UPDATE"
  | .delete => "DELETE"
  | .create => "CREATE"
  | .drop => "DROP"
  | .from => "FROM"
  | .into => "INTO"
  | .values => "VALUES"
  | .defaultValues => "DEFAULT VALUES"
  | .set => "SET"
  | .where => "WHERE"
  | .groupBy => "GROUP BY"
  | .having => "HAVING"
  | .orderBy => "ORDER BY"
  | .limit => "LIMIT"
  | .offset => "OFFSET"
  | .forUpdate => "FOR UPDATE"
  | .returning => "RETURNING"
  | .on => "ON"
  | .join => "JOIN"
  | .innerJoin => "INNER JOIN"
  | .leftJoin => "LEFT JOIN"
  | .rightJoin => "RIGHT JOIN"
  | .table => "TABLE"
  | .ifExists => "IF EXISTS"
  | .ifNotExists => "IF NOT EXISTS"
  | .cascade => "CASCADE"
  | .restrict => "RESTRICT"
  | .as => "AS"
  | .distinct => "DISTINCT"
  | .and => "AND"
  | .or => "OR"
  | .not => "NOT"
  | .between => "BETWEEN"
  | .notBetween => "NOT BETWEEN"
  | .in => "IN"
  | .notIn => "NOT IN"
  | .any => "ANY"
  | .exists => "EXISTS"
  | .notExists => "NOT EXISTS"
  | .like => "LIKE"
  | .notLike => "NOT LIKE"
  | .is => "IS"
  | .isNot => "IS NOT"
  | .null => "NULL"
  | .asc => "ASC"
  | .desc => "DESC"
  | .star => "*"
  | .constraint => "CONSTRAINT"
  | .primaryKey => "PRIMARY KEY"
  | .unique => "UNIQUE"
  | .foreignKey => "FOREIGN KEY"
  | .references => "REFERENCES"
  | .check => "CHECK"
  | .notNull => "NOT NULL"
  | .default => "DEFAULT"
  | .onDelete => "ON DELETE"
  | .onUpdate => "ON UPDATE"
  | .eq => "="
  | .ne => "<>"
  | .lt => "<"
  | .le => "<="
  | .gt => ">"
  | .ge => ">="
  | .plus => "+"
  | .minus => "-"
  | .times => "*"
  | .slash => "/"

/-- The name of a keyword: its words joined by `_`, or the word for a sign. -/
def name : Keyword → String
  | .star => "STAR"
  | .eq => "EQ"
  | .ne => "NE"
  | .lt => "LT"
  | .le => "LE"
  | .gt => "GT"
  | .ge => "GE"
  | .plus => "PLUS"
  | .minus => "MINUS"
  | .times => "STAR_OP"
  | .slash => "SLASH"
  | keyword => String.ofList (keyword.text.toList.map fun c => if c = ' ' then '_' else c)

def all : List Keyword :=
  [.select, .insert, .update, .delete, .create, .drop, .from, .into, .values, .defaultValues,
    .set, .where, .groupBy, .having, .orderBy, .limit, .offset, .forUpdate, .returning, .on,
    .join, .innerJoin, .leftJoin, .rightJoin, .table, .ifExists, .ifNotExists, .cascade,
    .restrict, .as, .distinct, .and, .or, .not, .between, .notBetween, .in, .notIn, .any,
    .exists, .notExists, .like, .notLike, .is, .isNot, .null, .asc, .desc, .star, .constraint,
    .primaryKey, .unique, .foreignKey, .references, .check, .notNull, .default, .onDelete,
    .onUpdate, .eq, .ne, .lt, .le, .gt, .ge, .plus, .minus, .times, .slash]

theorem mem_all (keyword : Keyword) : keyword ∈ all := by
  cases keyword <;> decide

end Keyword

instance : ToString Keyword := ⟨Keyword.text⟩

end RecordMapper
