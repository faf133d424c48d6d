import RecordMapper.Condition
import RecordMapper.Row
import RecordMapper.Value.Key

/-!
# What conditions say of rows

The truth of a condition on a row is that of a database: a comparison with null is neither true nor
false, and a statement applies to the rows that its condition is true of.  Only the operators that
tell rows apart are read; of any other nothing is known.
-/

namespace RecordMapper

namespace Value

/-! ## Values in statements -/

mutual

/-- The value that a literal stands for.  A number that is not finite is written as null. -/
def written : Value → Value
  | float x => if x.isFinite then float x else null
  | array items => array (writtenAll items)
  | value => value

def writtenAll : List Value → List Value
  | [] => []
  | item :: rest => written item :: writtenAll rest

end

/-- The whole number that a value stands for; truth counts as one. -/
def whole? : Value → Option Int
  | bool b => some (if b then 1 else 0)
  | integer n => some n.toInt
  | float x => x.whole?
  | _ => none

mutual

/-- Whether a database takes two values for the same.  Numbers are compared as numbers, and arrays
item by item. -/
def agrees : Value → Value → Bool
  | array as, array bs => agreesAll as bs
  | a, b =>
      match a.whole?, b.whole? with
      | some m, some n => m == n
      | _, _ => a.equals b

def agreesAll : List Value → List Value → Bool
  | [], [] => true
  | a :: as, b :: bs => agrees a b && agreesAll as bs
  | _, _ => false

end

/-- What a comparison of two values says; nothing when one of them is null. -/
def compare (stored other : Value) : Option Bool :=
  if stored.isNull || other.isNull then none else some (stored.agrees other)

end Value

/-! ## Conditions -/

/-- The value of a field in a row.  A row has no fields of other tables. -/
def Row.read (row : Row) (ref : FieldRef) : Value :=
  match ref.table with
  | none => (row.get? ref.name).getD .null
  | some _ => .null

def allTrue (truths : List (Option Bool)) : Option Bool :=
  if some false ∈ truths then some false
  else if none ∈ truths then none
  else some true

def anyTrue (truths : List (Option Bool)) : Option Bool :=
  if some true ∈ truths then some true
  else if none ∈ truths then none
  else some false

mutual

/-- What a condition says of a row, if anything. -/
def Condition.truth (row : Row) : Condition → Option Bool
  | .node .and operands => allTrue (truths row operands)
  | .node .or operands => anyTrue (truths row operands)
  | .node .eq [.field ref, .value v] => (row.read ref).compare v.written
  | .node .is [.field ref, .value .null] => some (row.read ref).isNull
  | .node .in [.field ref, .value (.array values)] =>
      anyTrue (values.map fun v => (row.read ref).compare v.written)
  | _ => none

def truths (row : Row) : List Condition → List (Option Bool)
  | [] => []
  | operand :: rest => operand.truth row :: truths row rest

end

theorem allTrue_eq_true {truths : List (Option Bool)} :
    allTrue truths = some true ↔ ∀ truth ∈ truths, truth = some true := by
  unfold allTrue
  split
  next hfalse =>
      refine ⟨fun h => by simp at h, fun h => ?_⟩
      have habsurd := h _ hfalse
      simp at habsurd
  next hfalse =>
      split
      next hnone =>
          refine ⟨fun h => by simp at h, fun h => ?_⟩
          have habsurd := h _ hnone
          simp at habsurd
      next hnone =>
          refine ⟨fun _ truth htruth => ?_, fun _ => rfl⟩
          rcases truth with _ | truth
          · exact absurd htruth hnone
          · cases truth with
            | false => exact absurd htruth hfalse
            | true => rfl

theorem anyTrue_eq_true {truths : List (Option Bool)} :
    anyTrue truths = some true ↔ some true ∈ truths := by
  unfold anyTrue
  split
  next htrue => simp [htrue]
  next htrue =>
      split <;> simp [htrue]

theorem anyTrue_eq_false {truths : List (Option Bool)} :
    anyTrue truths = some false ↔ ∀ truth ∈ truths, truth = some false := by
  unfold anyTrue
  split
  next htrue =>
      refine ⟨fun h => by simp at h, fun h => ?_⟩
      have habsurd := h _ htrue
      simp at habsurd
  next htrue =>
      split
      next hnone =>
          refine ⟨fun h => by simp at h, fun h => ?_⟩
          have habsurd := h _ hnone
          simp at habsurd
      next hnone =>
          refine ⟨fun _ truth htruth => ?_, fun _ => rfl⟩
          rcases truth with _ | truth
          · exact absurd htruth hnone
          · cases truth with
            | false => rfl
            | true => exact absurd htruth htrue

theorem truths_eq_map (row : Row) (operands : List Condition) :
    truths row operands = operands.map (Condition.truth row) := by
  induction operands with
  | nil => rfl
  | cons operand rest ih => rw [truths, ih, List.map_cons]

namespace Condition

/-- Whether a statement with the condition applies to a row. -/
def selects (condition : Condition) (row : Row) : Prop :=
  condition.truth row = some true

instance (condition : Condition) (row : Row) : Decidable (condition.selects row) :=
  inferInstanceAs (Decidable (_ = _))

theorem selects_and {operands : List Condition} {row : Row} :
    (Condition.and operands).selects row ↔ ∀ operand ∈ operands, operand.selects row := by
  rw [selects, Condition.and, truth, allTrue_eq_true, truths_eq_map]
  simp [selects]

theorem selects_or {operands : List Condition} {row : Row} :
    (Condition.or operands).selects row ↔ ∃ operand ∈ operands, operand.selects row := by
  rw [selects, Condition.or, truth, anyTrue_eq_true, truths_eq_map, List.mem_map]
  rfl

theorem selects_eq {path : String} {value : Value} {row : Row} :
    (Condition.eq (ofPath path) (.value value)).selects row ↔
      (row.read (FieldRef.ofPath path)).compare value.written = some true :=
  Iff.rfl

theorem selects_isNull {path : String} {row : Row} :
    (Condition.isNull (ofPath path)).selects row ↔
      (row.read (FieldRef.ofPath path)).isNull = true := by
  rw [selects, isNull, ofPath, truth]
  simp

theorem selects_inList {path : String} {values : List Value} {row : Row} :
    (Condition.inList (ofPath path) values).selects row ↔
      ∃ value ∈ values, (Condition.eq (ofPath path) (.value value)).selects row := by
  rw [selects, inList, ofPath, truth, anyTrue_eq_true, List.mem_map]
  rfl

end Condition

end RecordMapper
