import Mathlib.Tactic.SplitIfs
import RecordMapper.Condition.Json
import RecordMapper.Proofs.Attempt

/-!
# Conditions in normal form

A condition in normal form is built of values, fields and verbatim SQL by operators, each with a number
of operands that it accepts.  Every condition that is written in JSON has this form: some of its nodes
are checked while they are read, and the others accept their operands by the way they are built.
-/

namespace RecordMapper.Condition

/-- The condition has no nested selection, and each operator in it accepts its operands. -/
inductive IsNormal : Condition → Prop
  | value (v : Value) : IsNormal (.value v)
  | field (ref : FieldRef) : IsNormal (.field ref)
  | raw (sql : String) : IsNormal (.raw sql)
  | node {op : Operator} {operands : List Condition}
      (haccepts : op.arity.accepts operands.length = true)
      (hoperands : ∀ operand ∈ operands, IsNormal operand) : IsNormal (.node op operands)

variable {c : Condition} {operands conditions : List Condition} {op : Operator}

theorem isNormal_pair {left right : Condition} (hop : op.arity = .exact 2) (hleft : left.IsNormal)
    (hright : right.IsNormal) : IsNormal (.node op [left, right]) := by
  refine .node (by rw [hop]; rfl) ?_
  rw [List.forall_mem_cons, List.forall_mem_singleton]
  exact ⟨hleft, hright⟩

theorem isNormal_joined (h : ∀ condition ∈ conditions, condition.IsNormal) :
    (joined conditions).IsNormal := by
  unfold joined
  split
  next condition => exact h condition List.mem_cons_self
  next => exact .node (by simp [Operator.arity, Arity.accepts]) h

theorem isNormal_of_checked (hchecked : checked op operands = .ok c)
    (h : ∀ operand ∈ operands, operand.IsNormal) : c.IsNormal := by
  unfold checked at hchecked
  split at hchecked
  next haccepts =>
      cases hchecked
      exact .node haccepts h
  next => cases hchecked

theorem isNormal_of_fieldLeaf {json : Json} (h : fieldLeaf json = .ok c) : c.IsNormal := by
  cases json with
  | string path =>
      cases h
      exact .field _
  | _ => cases h

theorem isNormal_plainLeaf (json : Json) : (plainLeaf json).IsNormal := by
  cases json with
  | _ => exact .raw _

/-! ## Members of mappings -/

def contentOfJson : Json → Attempt (List Condition)
  | .array items => operandsOfJson items
  | .object inner => (fun conditions => [joined conditions]) <$> membersOfJson inner
  | single => (fun v => [Condition.value v]) <$> literalOfJson single

def memberOfJson (name : String) (content : Json) : Attempt Condition :=
  if name = ":name" then fieldLeaf content
  else if name = ":value" then Condition.value <$> literalOfJson content
  else if name = ":plain" then .ok (plainLeaf content)
  else if namesOperator name then do
    let op ← operatorNamed name
    checked op (← contentOfJson content)
  else comparisonOfJson (ofPath name) content

theorem membersOfJson_cons (name : String) (content : Json) (rest : List (String × Json)) :
    membersOfJson ((name, content) :: rest) = do
      let condition ← memberOfJson name content
      let conditions ← membersOfJson rest
      return condition :: conditions := by
  rw [membersOfJson, memberOfJson]
  split_ifs
  · rfl
  · rfl
  · rfl
  · cases content with
    | _ => simp only [bind_assoc, contentOfJson]
  · rfl

theorem isNormal_cons {first : Attempt Condition} {others : Attempt (List Condition)}
    (hfirst : ∀ c, first = .ok c → c.IsNormal)
    (hothers : ∀ cs, others = .ok cs → ∀ c ∈ cs, c.IsNormal)
    (h : (do let c ← first; let cs ← others; return c :: cs) = .ok conditions) :
    ∀ c ∈ conditions, c.IsNormal := by
  obtain ⟨c, hc, h⟩ := attempt_bind_eq_ok.mp h
  obtain ⟨cs, hcs, h⟩ := attempt_bind_eq_ok.mp h
  cases h
  rw [List.forall_mem_cons]
  exact ⟨hfirst c hc, hothers cs hcs⟩

/-! ## Conditions written in JSON -/

mutual

theorem isNormal_of_operandOfJson : (json : Json) → ∀ c, operandOfJson json = .ok c → c.IsNormal
  | .object members, c, h => by
      rw [operandOfJson] at h
      obtain ⟨conditions, hconditions, h⟩ := attempt_bind_eq_ok.mp h
      cases h
      exact isNormal_joined (isNormal_of_membersOfJson members conditions hconditions)
  | .null, c, h | .bool _, c, h | .integer _, c, h | .number _, c, h | .string _, c, h
  | .array _, c, h => by
      rw [operandOfJson] at h
      · obtain ⟨v, -, h⟩ := attempt_bind_eq_ok.mp h
        cases h
        exact .value v
      · nofun

theorem isNormal_of_operandsOfJson : (items : List Json) → ∀ cs, operandsOfJson items = .ok cs →
    ∀ c ∈ cs, c.IsNormal
  | [], cs, h => by
      cases h
      exact List.forall_mem_nil _
  | item :: rest, cs, h => by
      rw [operandsOfJson] at h
      exact isNormal_cons (isNormal_of_operandOfJson item) (isNormal_of_operandsOfJson rest) h

theorem isNormal_of_comparisonOfJson {left : Condition} (hleft : left.IsNormal) : (json : Json) →
    ∀ c, comparisonOfJson left json = .ok c → c.IsNormal
  | .null, c, h => by
      cases h
      exact isNormal_pair rfl hleft (.value .null)
  | .array items, c, h => by
      obtain ⟨values, -, h⟩ := attempt_bind_eq_ok.mp h
      cases h
      exact isNormal_pair rfl hleft (.value _)
  | .object members, c, h => by
      rw [comparisonOfJson] at h
      split at h
      · obtain ⟨comparisons, hcomparisons, h⟩ := attempt_bind_eq_ok.mp h
        cases h
        exact isNormal_joined (isNormal_of_comparisonsOfJson hleft members comparisons hcomparisons)
      · obtain ⟨conditions, hconditions, h⟩ := attempt_bind_eq_ok.mp h
        cases h
        exact isNormal_pair rfl hleft
          (isNormal_joined (isNormal_of_membersOfJson members conditions hconditions))
  | .bool _, c, h | .integer _, c, h | .number _, c, h | .string _, c, h => by
      obtain ⟨v, -, h⟩ := attempt_bind_eq_ok.mp h
      cases h
      exact isNormal_pair rfl hleft (.value v)

theorem isNormal_of_comparisonsOfJson {left : Condition} (hleft : left.IsNormal) :
    (members : List (String × Json)) → ∀ cs, comparisonsOfJson left members = .ok cs →
    ∀ c ∈ cs, c.IsNormal
  | [], cs, h => by
      cases h
      exact List.forall_mem_nil _
  | (name, content) :: rest, cs, h => by
      rw [comparisonsOfJson] at h
      obtain ⟨op, -, h⟩ := attempt_bind_eq_ok.mp h
      obtain ⟨right, hright, h⟩ := attempt_bind_eq_ok.mp h
      refine isNormal_cons (fun c hc => isNormal_of_checked hc ?_)
        (isNormal_of_comparisonsOfJson hleft rest) h
      rw [List.forall_mem_cons, List.forall_mem_singleton]
      exact ⟨hleft, isNormal_of_operandOfJson content right hright⟩

theorem isNormal_of_membersOfJson : (members : List (String × Json)) → ∀ cs,
    membersOfJson members = .ok cs → ∀ c ∈ cs, c.IsNormal
  | [], cs, h => by
      cases h
      exact List.forall_mem_nil _
  | (name, content) :: rest, cs, h => by
      rw [membersOfJson_cons] at h
      refine isNormal_cons (fun c hc => ?_) (isNormal_of_membersOfJson rest) h
      unfold memberOfJson at hc
      split_ifs at hc
      · exact isNormal_of_fieldLeaf hc
      · obtain ⟨v, -, rfl⟩ := attempt_map_eq_ok.mp hc
        exact .value v
      · cases hc
        exact isNormal_plainLeaf content
      · obtain ⟨op, -, hc⟩ := attempt_bind_eq_ok.mp hc
        obtain ⟨operands, hoperands, hc⟩ := attempt_bind_eq_ok.mp hc
        refine isNormal_of_checked hc ?_
        -- The content is one operand, or an array of them.
        cases content with
        | array items => exact isNormal_of_operandsOfJson items operands hoperands
        | object inner =>
            obtain ⟨conditions, hconditions, rfl⟩ := attempt_map_eq_ok.mp hoperands
            rw [List.forall_mem_singleton]
            exact isNormal_joined (isNormal_of_membersOfJson inner conditions hconditions)
        | _ =>
            obtain ⟨v, -, rfl⟩ := attempt_map_eq_ok.mp hoperands
            rw [List.forall_mem_singleton]
            exact .value v
      · exact isNormal_of_comparisonOfJson (.field _) content c hc

end

mutual

/-- Every condition that is written in JSON is in normal form. -/
theorem isNormal_of_ofJson : (json : Json) → ∀ c, ofJson json = .ok c → c.IsNormal
  | .object members, c, h => by
      obtain ⟨conditions, hconditions, h⟩ := attempt_bind_eq_ok.mp h
      cases h
      exact isNormal_joined (isNormal_of_membersOfJson members conditions hconditions)
  | .array items, c, h => by
      rw [ofJson] at h
      obtain ⟨conditions, hconditions, h⟩ := attempt_bind_eq_ok.mp h
      cases h
      exact isNormal_joined (isNormal_of_ofJsonAll items conditions hconditions)
  | .string sql, c, h => by
      cases h
      exact .raw sql
  | .null, _, h | .bool _, _, h | .integer _, _, h | .number _, _, h => by cases h

theorem isNormal_of_ofJsonAll : (items : List Json) → ∀ cs, ofJsonAll items = .ok cs →
    ∀ c ∈ cs, c.IsNormal
  | [], cs, h => by
      cases h
      exact List.forall_mem_nil _
  | item :: rest, cs, h => by
      rw [ofJsonAll] at h
      exact isNormal_cons (isNormal_of_ofJson item) (isNormal_of_ofJsonAll rest) h

end

end RecordMapper.Condition
